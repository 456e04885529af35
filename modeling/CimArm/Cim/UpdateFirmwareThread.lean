import CimArm.Device.ConvertionTable
import CimArm.Lib.Decimal
import CimArm.Lib.Trace
import CimArm.System.StringTokenizer
import Mathlib.Logic.Function.Basic

/-!
# The thread that updates the firmware of the validators

An update file lists validators and names an image.  The thread updates them in turn and tries
each one twice; on battery it writes the update file again, with those that are left.  The device
reports the progress of a try from another thread, in two marks that belong to no try.

The mark of the end is cleared once for each update file, so that only the first try is waited
for.  Whether the files may be deleted is kept from one update file to the next, and is not set
where the thread returns early.

* `always_right`: in every run in which the later tries end in time, no try is refused before the
  last validator, and the early returns meet the value they need, the thread starts a try when
  all others have ended, tries again only what failed, lists what is left and deletes what is
  done.
-/

namespace CimArm.UpdateFirmware

open Trace List

/-! ## The update file -/

/-- The two values of an update file. -/
structure IniFile : Type where
  acceptors : CString
  file : CString
  deriving DecidableEq

structure IniFileInfo : Type where
  file : CString
  acceptors : List AcceptorSettings
  deriving DecidableEq

/-- `%d` -/
def printInt (n : Int) : CString :=
  if n < 0 then 0x2D :: Decimal.ofNat n.natAbs else Decimal.ofNat n.natAbs

/-- `acceptorsIdList`, unless it goes beyond the end of a buffer. -/
def acceptorsIdList (acceptors : List AcceptorSettings) : Option CString :=
  let ids := acceptors.map fun acceptor => printInt acceptor.acceptorId
  let list := StringTokenizer.comma.intercalate ids
  if (∀ id ∈ ids, id.length < 10) ∧ list.length < 50 then some list else none

section

variable (cim : List AcceptorSettings)

def getAcceptorById (anId : Int) : Option AcceptorSettings :=
  cim.find? fun acceptor => acceptor.acceptorId = anId

/-- What a token of the list stands for: validators only. -/
def readAcceptor (token : CString) : Option AcceptorSettings :=
  (getAcceptorById cim (ConvertionTable.atoi token)).filter (·.acceptorType = .validator)

/-- What an update file tells, unless a token goes beyond the end of its buffer. -/
def getIniFileInfo (ini : IniFile) : Option IniFileInfo :=
  let tokenizer := StringTokenizer.start ini.acceptors StringTokenizer.comma .none
  (tokenizer.iterate 0 (ini.acceptors.length + 1)).bind fun tokens =>
    if ∀ token ∈ tokens, token.length < 50 then
      some ⟨ini.file.take 254, tokens.filterMap (readAcceptor cim)⟩
    else none

end

/-! ## The thread -/

/-- The update file that is worked on, and those behind it. -/
structure Job : Type where
  fileName : CString
  info : IniFileInfo
  files : List CString

/-- The statement the thread executes next. -/
inductive Pc : Type
  | sleep
  | checkForNewUpdates (files : List CString)
  | unzipFile (job : Job)
  /-- The head of the loop over the validators. -/
  | acceptor (job : Job) (i : Nat)
  | updateFirmware (job : Job) (i iTry : Nat)
  /-- `while (!myUpgradeIsFinish)` -/
  | waitFinish (job : Job) (i iTry : Nat)
  /-- Behind the pause. -/
  | checkSuccess (job : Job) (i iTry : Nat)
  | stopUpgrade (job : Job)
  | unlink (job : Job)
  | ended

/-- The fields of the thread, and the files of the directory. -/
structure UpdateFirmwareThread : Type where
  myUpgradeIsFinish : Bool
  myUpgradeIsSuccess : Bool
  myUpgradeInProgress : Bool
  myCanDeleteUpgrade : Bool
  inis : CString → Option IniFile
  images : CString → Bool
  pc : Pc

/-- What the calls of a statement answer. -/
structure Answers : Type where
  findFilesByExt : List CString
  unzipFile : Bool
  /-- `[SafeBoxHAL getPowerStatus] == PowerStatus_BACKUP` -/
  onBattery : Bool
  updateFirmware : Bool

namespace UpdateFirmwareThread

def new : UpdateFirmwareThread :=
  ⟨false, false, false, true, fun _ => none, fun _ => false, .sleep⟩

variable (self : UpdateFirmwareThread)

def onFirmwareUpdateProgress (aProgress : Int) : UpdateFirmwareThread :=
  let self :=
    if aProgress = 100 then { self with myUpgradeIsSuccess := true, myUpgradeIsFinish := true }
    else self
  if aProgress = 255 then { self with myUpgradeIsSuccess := false, myUpgradeIsFinish := true }
  else self

/-- An update file and its image are put into the directory. -/
def deliver (fileName : CString) (ini : IniFile) : UpdateFirmwareThread :=
  { self with
    inis := Function.update self.inis fileName (some ini)
    images := Function.update self.images (ini.file.take 254) true }

def setIniFileInfo (anAcceptorSettingIdList aFileName : CString) (fileName : CString) :
    UpdateFirmwareThread :=
  { self with
    inis := Function.update self.inis fileName (some ⟨anAcceptorSettingIdList, aFileName⟩) }

/-- One statement of the thread. -/
def run (cim : List AcceptorSettings) (answers : Answers) : UpdateFirmwareThread :=
  match self.pc with
  | .sleep =>
    { self with
      pc := .checkForNewUpdates
        (answers.findFilesByExt.filter fun fileName => (self.inis fileName).isSome) }
  | .checkForNewUpdates [] => { self with pc := .sleep }
  | .checkForNewUpdates (fileName :: files) =>
    match (self.inis fileName).bind (getIniFileInfo cim) with
    | none => { self with pc := .ended }
    | some info =>
      if info.acceptors.length ≠ 0 then
        { self with
          myUpgradeInProgress := true
          myUpgradeIsFinish := false
          myUpgradeIsSuccess := false
          pc := .unzipFile ⟨fileName, info, files⟩ }
      else { self with pc := .unlink ⟨fileName, info, files⟩ }
  | .unzipFile job =>
    if answers.unzipFile then { self with myCanDeleteUpgrade := true, pc := .acceptor job 0 }
    else { self with pc := .stopUpgrade job }
  | .acceptor job i =>
    if i < job.info.acceptors.length then
      if answers.onBattery then
        match acceptorsIdList (job.info.acceptors.drop i) with
        | none => { self with pc := .ended }
        | some list =>
          { self.setIniFileInfo list job.info.file job.fileName with
            myCanDeleteUpgrade := false
            pc := .stopUpgrade job }
      else { self with pc := .updateFirmware job i 0 }
    else { self with pc := .stopUpgrade job }
  | .updateFirmware job i iTry =>
    if !answers.updateFirmware then
      { self with myUpgradeIsSuccess := false, pc := .stopUpgrade job }
    else { self with pc := .waitFinish job i iTry }
  | .waitFinish job i iTry =>
    if !self.myUpgradeIsFinish then self else { self with pc := .checkSuccess job i iTry }
  | .checkSuccess job i iTry =>
    if self.myUpgradeIsSuccess then { self with pc := .acceptor job (i + 1) }
    else if iTry + 1 < 2 then { self with pc := .updateFirmware job i (iTry + 1) }
    else { self with pc := .acceptor job (i + 1) }
  | .stopUpgrade job => { self with myUpgradeInProgress := false, pc := .unlink job }
  | .unlink job =>
    if self.myCanDeleteUpgrade then
      { self with
        inis := Function.update self.inis job.fileName none
        images := Function.update self.images job.info.file false
        pc := .checkForNewUpdates job.files }
    else { self with pc := .checkForNewUpdates job.files }
  | .ended => self

end UpdateFirmwareThread

/-! ## Runs -/

/-- A try that was started, and what was reported of it. -/
structure Attempt : Type where
  acceptor : AcceptorSettings
  ended : Bool
  failed : Bool
  deriving DecidableEq

/-- The thread, the tries that were started, and the validators that were tried for the update
file that is worked on. -/
structure Session : Type where
  thread : UpdateFirmwareThread
  attempts : List Attempt
  tried : List AcceptorSettings

inductive Event : Type
  | deliver (fileName : CString) (ini : IniFile)
  /-- A report of the try with this number. -/
  | onFirmwareUpdateProgress (attempt : Nat) (aProgress : Int)
  | run (answers : Answers)

def Attempt.report (aProgress : Int) (attempt : Attempt) : Attempt :=
  { attempt with
    ended := attempt.ended || aProgress = 100 || aProgress = 255
    failed := attempt.failed || aProgress = 255 }

namespace Session

def start : Session := ⟨.new, [], []⟩

/-- What is seen of a statement of the thread. -/
def observe (answers : Answers) (self : Session) : Session :=
  match self.thread.pc with
  | .checkForNewUpdates _ => { self with tried := [] }
  | .updateFirmware job i _ =>
    match job.info.acceptors[i]? with
    | none => self
    | some acceptor =>
      { self with
        attempts :=
          if answers.updateFirmware then self.attempts ++ [⟨acceptor, false, false⟩]
          else self.attempts
        tried := self.tried ++ [acceptor] }
  | _ => self

variable (cim : List AcceptorSettings)

def step : Event → Session → Session
  | .deliver fileName ini, self => { self with thread := self.thread.deliver fileName ini }
  | .onFirmwareUpdateProgress attempt aProgress, self =>
    if attempt < self.attempts.length then
      { self with
        thread := self.thread.onFirmwareUpdateProgress aProgress
        attempts := self.attempts.mapIdx fun k each =>
          if k = attempt then each.report aProgress else each }
    else self
  | .run answers, self =>
    { self.observe answers with thread := self.thread.run cim answers }

/-- What a statement of the thread should do. -/
def Right (self : Session) : Event → Prop
  | .run answers =>
    let thread := self.thread.run cim answers
    match self.thread.pc with
    | .updateFirmware job i _ =>
      -- all tries have ended, and this is the first of its validator or the first one failed
      (∀ attempt ∈ self.attempts, attempt.ended = true) ∧
        ∃ acceptor, job.info.acceptors[i]? = some acceptor ∧
          (acceptor ∉ self.tried ∨ self.tried.count acceptor = 1 ∧
            ∃ before ended, self.attempts = before ++ [⟨acceptor, ended, true⟩])
    | .acceptor job i =>
      i < job.info.acceptors.length → answers.onBattery = true →
        (thread.inis job.fileName).bind (getIniFileInfo cim) =
          some ⟨job.info.file, job.info.acceptors.filter (· ∉ self.tried)⟩
    | .unlink job =>
      if ∃ acceptor ∈ job.info.acceptors, acceptor ∉ self.tried then
        thread.inis = self.thread.inis ∧ thread.images = self.thread.images
      else thread.inis job.fileName = none ∧ thread.images job.info.file = false
    | _ => True
  | _ => True

/-- What the thread relies on. -/
def Fits (self : Session) : Event → Prop
  | .run answers =>
    match self.thread.pc with
    | .checkForNewUpdates (fileName :: _) =>
      ∃ info, (self.thread.inis fileName).bind (getIniFileInfo cim) = some info ∧
        info.acceptors.Nodup ∧
          (info.acceptors = [] → self.thread.myCanDeleteUpgrade = true)
    | .unzipFile _ => answers.unzipFile = false → self.thread.myCanDeleteUpgrade = false
    | .acceptor job i =>
      i < job.info.acceptors.length → answers.onBattery = true →
        (acceptorsIdList (job.info.acceptors.drop i)).isSome
    | .updateFirmware job i _ =>
      answers.updateFirmware = false → i + 1 = job.info.acceptors.length
    | .checkSuccess _ _ iTry =>
      ∃ before attempt, self.attempts = before ++ [attempt] ∧ attempt.ended = true ∧
        (iTry = 0 → self.thread.myUpgradeIsSuccess = false → attempt.failed = true)
    | _ => True
  | _ => True

end Session

open Session

/-! ## The list of validators -/

theorem digits_eq (s : CString) : ConvertionTable.digits s = Decimal.value s := by
  have from_ (l : CString) (n : Nat) :
      l.foldl (fun (n : Int) c => n * 10 + (c.toNat - 48 : Nat)) n =
        (l.foldl (fun n c => 10 * n + (c.toNat - 48)) n : Nat) := by
    induction l generalizing n with
    | nil => rfl
    | cons c l ih =>
      rw [foldl_cons, foldl_cons, ← ih]
      congr 1
      push_cast
      rw [Int.mul_comm]
  exact from_ _ 0

theorem atoi_printInt (n : Int) : ConvertionTable.atoi (printInt n) = n := by
  have digits (m : Nat) : ∃ c rest, Decimal.ofNat m = c :: rest ∧ Decimal.isDigit c = true := by
    obtain ⟨c, rest, text⟩ := exists_cons_of_ne_nil (Decimal.ofNat_ne_nil m)
    exact ⟨c, rest, text, Decimal.isDigit_of_mem (text ▸ mem_cons_self)⟩
  rw [printInt]
  split
  · rename_i negative
    have minus : ConvertionTable.isspace 0x2D = false := by decide
    rw [ConvertionTable.atoi, dropWhile_cons, minus, if_neg Bool.false_ne_true,
      if_pos List.head?_cons, drop_one, tail_cons, digits_eq, Decimal.value_ofNat]
    omega
  · rename_i nonneg
    obtain ⟨c, rest, text, digit⟩ := digits n.natAbs
    have plain : ConvertionTable.isspace c = false ∧ c ≠ 0x2D ∧ c ≠ 0x2B := by
      rw [Decimal.isDigit, decide_eq_true_eq] at digit
      refine ⟨?_, ?_, ?_⟩
      · rw [ConvertionTable.isspace, decide_eq_false_iff_not]
        intro space
        rcases space with rfl | space
        · exact absurd digit (by decide)
        · exact absurd (Trans.trans digit.1 space.2) (by decide)
      · rintro rfl
        exact absurd digit (by decide)
      · rintro rfl
        exact absurd digit (by decide)
    obtain ⟨space, minus, plus⟩ := plain
    rw [ConvertionTable.atoi, text, dropWhile_cons, space, if_neg Bool.false_ne_true,
      List.head?_cons, if_neg (by simpa using minus), if_neg (by simpa using plus), ← text,
      digits_eq, Decimal.value_ofNat]
    omega

theorem comma_notMem_printInt (n : Int) : ','.toUInt8 ∉ printInt n := by
  have digits (m : Nat) : ','.toUInt8 ∉ Decimal.ofNat m := by
    intro member
    exact absurd (Decimal.isDigit_of_mem member) (by decide)
  rw [printInt]
  split
  · rw [mem_cons, not_or]
    exact ⟨by decide, digits _⟩
  · exact digits _

theorem printInt_ne_nil (n : Int) : printInt n ≠ [] := by
  rw [printInt]
  split
  · exact cons_ne_nil _ _
  · exact Decimal.ofNat_ne_nil _

/-- What an update file tells was found in the list of the validators. -/
structure Listed (cim : List AcceptorSettings) (info : IniFileInfo) : Prop where
  nodup : info.acceptors.Nodup
  known : ∀ acceptor ∈ info.acceptors,
    readAcceptor cim (printInt acceptor.acceptorId) = some acceptor
  short : info.file.take 254 = info.file

theorem readAcceptor_id {cim : List AcceptorSettings} {token : CString}
    {acceptor : AcceptorSettings} (read : readAcceptor cim token = some acceptor) :
    readAcceptor cim (printInt acceptor.acceptorId) = some acceptor := by
  have number : acceptor.acceptorId = ConvertionTable.atoi token := by
    obtain ⟨found, -⟩ := Option.filter_eq_some_iff.1 read
    rw [getAcceptorById] at found
    simpa only [decide_eq_true_eq] using List.find?_some found
  rw [readAcceptor, atoi_printInt, number]
  exact read

theorem listed_of_getIniFileInfo {cim : List AcceptorSettings} {ini : IniFile} {info : IniFileInfo}
    (read : getIniFileInfo cim ini = some info) (nodup : info.acceptors.Nodup) :
    Listed cim info := by
  obtain ⟨tokens, -, same⟩ := Option.bind_eq_some_iff.1 read
  split_ifs at same
  cases same
  refine ⟨nodup, ?_, ?_⟩
  · intro acceptor member
    obtain ⟨token, -, found⟩ := mem_filterMap.1 member
    exact readAcceptor_id found
  · rw [take_take, Nat.min_self]

theorem iterate_ids {texts : List CString} (some : texts ≠ [])
    (absent : ∀ text ∈ texts, ','.toUInt8 ∉ text) (filled : ∀ text ∈ texts, text ≠ []) {fuel : Nat}
    (enough : (StringTokenizer.comma.intercalate texts).length < fuel) :
    (StringTokenizer.start (StringTokenizer.comma.intercalate texts) StringTokenizer.comma
      .none).iterate 0 fuel = .some texts := by
  have pieces : Pieces.pieces StringTokenizer.comma StringTokenizer.comma_ne_nil
      (StringTokenizer.comma.intercalate texts) = texts := Pieces.pieces_intercalate some absent
  have stays (l : List CString) : StringTokenizer.StaysInside .none StringTokenizer.comma l := by
    induction l with
    | nil => trivial
    | cons text l ih => exact fun _ => ⟨(fun trims => by cases trims), ih⟩
  have all (l : List CString) (filled : ∀ text ∈ l, text ≠ []) :
      StringTokenizer.reached .none StringTokenizer.comma l = l := by
    induction l with
    | nil => rfl
    | cons text l ih =>
      obtain ⟨c, rest, same⟩ := exists_cons_of_ne_nil (filled text mem_cons_self)
      rw [StringTokenizer.reached, if_pos, ih fun t member => filled t (mem_cons_of_mem _ member)]
      cases l with
      | nil =>
        rw [intercalate_singleton, same]
        rfl
      | cons next l =>
        rw [intercalate_cons_of_ne_nil (cons_ne_nil _ _), same]
        rfl
  rw [StringTokenizer.iterate_eq 0 _ _ .none StringTokenizer.comma_ne_nil (stays _) enough, pieces,
    all texts filled]
  exact congrArg Option.some (map_id texts)

theorem getIniFileInfo_acceptorsIdList {cim acceptors : List AcceptorSettings} {file list : CString}
    (short : file.take 254 = file) (some : acceptors ≠ [])
    (known : ∀ acceptor ∈ acceptors,
      readAcceptor cim (printInt acceptor.acceptorId) = .some acceptor)
    (fits : acceptorsIdList acceptors = .some list) :
    getIniFileInfo cim ⟨list, file⟩ = .some ⟨file, acceptors⟩ := by
  rw [acceptorsIdList] at fits
  split_ifs at fits with room
  obtain ⟨ids, -⟩ := room
  cases fits
  have tokens := @iterate_ids (acceptors.map fun acceptor => printInt acceptor.acceptorId)
    (by simpa using some)
    (by
      intro text member
      obtain ⟨acceptor, -, rfl⟩ := mem_map.1 member
      exact comma_notMem_printInt _)
    (by
      intro text member
      obtain ⟨acceptor, -, rfl⟩ := mem_map.1 member
      exact printInt_ne_nil _)
    _ (Nat.lt_succ_self _)
  have back : (acceptors.map fun acceptor => printInt acceptor.acceptorId).filterMap
      (readAcceptor cim) = acceptors := by
    rw [filterMap_map]
    conv_rhs => rw [← filterMap_some (l := acceptors)]
    exact filterMap_congr known
  have small : ∀ token ∈ acceptors.map fun acceptor => printInt acceptor.acceptorId,
      token.length < 50 := by
    intro token member
    exact Nat.lt_trans (ids token member) (by decide)
  rw [getIniFileInfo]
  dsimp only
  rw [tokens, Option.bind_some, if_pos small, short, back]

/-! ## The invariant -/

def AllEnded (attempts : List Attempt) : Prop := ∀ attempt ∈ attempts, attempt.ended = true

/-- The try under way is the last one that was started. -/
structure Trying (session : Session) (job : Job) (i iTry : Nat) : Prop where
  deletes : session.thread.myCanDeleteUpgrade = true
  tried : ∀ a, a ∈ session.tried ↔ a ∈ job.info.acceptors.take (i + 1)
  last : ∃ acceptor, job.info.acceptors[i]? = some acceptor ∧
    session.tried.count acceptor = iTry + 1 ∧ ∃ before ended failed,
      session.attempts = before ++ [⟨acceptor, ended, failed⟩] ∧ AllEnded before

/-- A validator that is about to be tried. -/
inductive Ready (session : Session) (job : Job) (i : Nat) (acceptor : AcceptorSettings) :
    Nat → Prop
  | first (tried : ∀ a, a ∈ session.tried ↔ a ∈ job.info.acceptors.take i) :
    Ready session job i acceptor 0
  | second (tried : ∀ a, a ∈ session.tried ↔ a ∈ job.info.acceptors.take (i + 1))
    (once : session.tried.count acceptor = 1) {before : List Attempt} {ended : Bool}
    (failed : session.attempts = before ++ [⟨acceptor, ended, true⟩]) :
    Ready session job i acceptor 1

variable (cim : List AcceptorSettings)

/-- What holds where the thread is. -/
def At (session : Session) : Pc → Prop
  | .sleep | .checkForNewUpdates _ => AllEnded session.attempts
  | .unzipFile job =>
    Listed cim job.info ∧ AllEnded session.attempts ∧ job.info.acceptors ≠ [] ∧ session.tried = []
  | .acceptor job i =>
    Listed cim job.info ∧ AllEnded session.attempts ∧
      session.thread.myCanDeleteUpgrade = true ∧
        ∀ a, a ∈ session.tried ↔ a ∈ job.info.acceptors.take i
  | .updateFirmware job i iTry =>
    Listed cim job.info ∧ AllEnded session.attempts ∧
      session.thread.myCanDeleteUpgrade = true ∧
        ∃ acceptor, job.info.acceptors[i]? = some acceptor ∧ Ready session job i acceptor iTry
  | .waitFinish job i iTry | .checkSuccess job i iTry =>
    Listed cim job.info ∧ Trying session job i iTry
  | .stopUpgrade job | .unlink job =>
    AllEnded session.attempts ∧ (session.thread.myCanDeleteUpgrade = true ↔
      ∀ a ∈ job.info.acceptors, a ∈ session.tried)
  | .ended => True

def Inv (session : Session) : Prop := At cim session session.thread.pc

variable {cim} {session : Session}

theorem inv_start : Inv cim start := by
  intro attempt member
  cases member

/-! ## Reports -/

section

variable {attempts : List Attempt} {number : Nat} {aProgress : Int}

theorem allEnded_report (ended : AllEnded attempts) : AllEnded (attempts.mapIdx fun k each =>
    if k = number then each.report aProgress else each) := by
  intro attempt member
  obtain ⟨k, inside, same⟩ := mem_mapIdx.1 member
  have before := ended _ (getElem_mem inside)
  rw [← same]
  split
  · simp only [Attempt.report, before, Bool.true_or]
  · exact before

theorem last_report {before : List Attempt} {acceptor : AcceptorSettings} {ended failed : Bool}
    (same : attempts = before ++ [⟨acceptor, ended, failed⟩]) : ∃ before' ended' failed',
      (attempts.mapIdx fun k each => if k = number then each.report aProgress else each) =
        before' ++ [⟨acceptor, ended', failed'⟩] ∧ (failed = true → failed' = true) ∧
          (AllEnded before → AllEnded before') := by
  rw [same, mapIdx_concat]
  by_cases here : before.length = number
  · rw [if_pos here]
    exact ⟨_, _, _, rfl, fun was => by rw [was, Bool.true_or], allEnded_report⟩
  · rw [if_neg here]
    exact ⟨_, _, _, rfl, id, allEnded_report⟩

theorem onFirmwareUpdateProgress_eq (thread : UpdateFirmwareThread) (aProgress : Int) :
    ∃ finish success, thread.onFirmwareUpdateProgress aProgress =
      { thread with myUpgradeIsFinish := finish, myUpgradeIsSuccess := success } := by
  rw [UpdateFirmwareThread.onFirmwareUpdateProgress]
  by_cases done : aProgress = 100
  · by_cases failed : aProgress = 255
    · exact ⟨true, false, by rw [if_pos done, if_pos failed]⟩
    · exact ⟨true, true, by rw [if_pos done, if_neg failed]⟩
  · by_cases failed : aProgress = 255
    · exact ⟨true, false, by rw [if_neg done, if_pos failed]⟩
    · exact ⟨_, _, by rw [if_neg done, if_neg failed]⟩

end

theorem Inv.onFirmwareUpdateProgress (inv : Inv cim session) (number : Nat) (aProgress : Int) :
    Inv cim (step cim (.onFirmwareUpdateProgress number aProgress) session) := by
  rw [step]
  split
  · obtain ⟨finish, success, thread⟩ := onFirmwareUpdateProgress_eq session.thread aProgress
    rw [thread]
    change At cim _ session.thread.pc
    rw [Inv] at inv
    cases pc : session.thread.pc with
    | sleep | checkForNewUpdates =>
      rw [pc] at inv
      exact allEnded_report inv
    | unzipFile job =>
      rw [pc] at inv
      exact ⟨inv.1, allEnded_report inv.2.1, inv.2.2⟩
    | acceptor job i =>
      rw [pc] at inv
      exact ⟨inv.1, allEnded_report inv.2.1, inv.2.2⟩
    | updateFirmware job i iTry =>
      rw [pc] at inv
      obtain ⟨listed, ended, deletes, acceptor, here, ready⟩ := inv
      refine ⟨listed, allEnded_report ended, deletes, acceptor, here, ?_⟩
      cases ready with
      | first tried => exact .first tried
      | second tried once failed =>
        obtain ⟨before, ended', failed', same, kept, -⟩ := last_report failed
        rw [kept rfl] at same
        exact .second tried once same
    | waitFinish job i iTry | checkSuccess job i iTry =>
      rw [pc] at inv
      obtain ⟨listed, deletes, tried, acceptor, here, count, before, ended, failed, last, others⟩ :=
        inv
      obtain ⟨before', ended', failed', same, -, kept⟩ := last_report last
      exact ⟨listed, deletes, tried, acceptor, here, count, before', ended', failed', same,
        kept others⟩
    | stopUpgrade job | unlink job =>
      rw [pc] at inv
      exact ⟨allEnded_report inv.1, inv.2⟩
    | ended => trivial
  · exact inv

theorem Inv.deliver (inv : Inv cim session) (fileName : CString) (ini : IniFile) :
    Inv cim (step cim (.deliver fileName ini) session) := by
  change At cim _ session.thread.pc
  rw [Inv] at inv
  cases pc : session.thread.pc with
  | updateFirmware job i iTry =>
    rw [pc] at inv
    obtain ⟨listed, ended, deletes, acceptor, here, ready⟩ := inv
    refine ⟨listed, ended, deletes, acceptor, here, ?_⟩
    cases ready with
    | first tried => exact .first tried
    | second tried once failed => exact .second tried once failed
  | waitFinish job i iTry | checkSuccess job i iTry =>
    rw [pc] at inv
    exact ⟨inv.1, inv.2.deletes, inv.2.tried, inv.2.last⟩
  | _ =>
    rw [pc] at inv
    exact inv

/-! ## Statements -/

section

variable {job : Job} {i iTry : Nat} {answers : Answers}

theorem mem_take_succ {acceptor : AcceptorSettings} {i : Nat} {acceptors : List AcceptorSettings}
    (here : acceptors[i]? = some acceptor) {tried : List AcceptorSettings}
    (front : ∀ a, a ∈ tried ↔ a ∈ acceptors.take i) (a : AcceptorSettings) :
    a ∈ tried ++ [acceptor] ↔ a ∈ acceptors.take (i + 1) := by
  rw [take_add_one, here, mem_append, mem_append, front]
  rfl

theorem notMem_take {acceptor : AcceptorSettings} {acceptors : List AcceptorSettings} {i : Nat}
    (nodup : acceptors.Nodup) (here : acceptors[i]? = some acceptor) :
    acceptor ∉ acceptors.take i := by
  intro member
  obtain ⟨k, inside, same⟩ := mem_take_iff_getElem.1 member
  obtain ⟨below, value⟩ := List.getElem?_eq_some_iff.1 here
  have equal := (nodup.getElem_inj_iff).1 (same.trans value.symm)
  omega

theorem Inv.run_checkForNewUpdates (inv : Inv cim session) {files : List CString}
    (pc : session.thread.pc = .checkForNewUpdates files)
    (fits : session.Fits cim (.run answers)) : Inv cim (step cim (.run answers) session) := by
  rw [Inv, pc] at inv
  simp only [Fits, pc] at fits
  simp only [step, observe, UpdateFirmwareThread.run, pc]
  cases files with
  | nil => exact inv
  | cons fileName files =>
    obtain ⟨info, read, nodup, done⟩ := fits
    dsimp only
    rw [read]
    dsimp only
    split
    · rename_i some
      have listed : Listed cim info := by
        obtain ⟨ini, -, read⟩ := Option.bind_eq_some_iff.1 read
        exact listed_of_getIniFileInfo read nodup
      refine ⟨listed, inv, ?_, rfl⟩
      intro none
      exact some (length_eq_zero_iff.2 none)
    · rename_i none
      have empty := length_eq_zero_iff.1 (not_not.1 none)
      refine ⟨inv, iff_of_true (done empty) ?_⟩
      rw [empty]
      intro a member
      cases member

theorem Inv.run_unzipFile (inv : Inv cim session) (pc : session.thread.pc = .unzipFile job)
    (fits : session.Fits cim (.run answers)) : Inv cim (step cim (.run answers) session) := by
  rw [Inv, pc] at inv
  simp only [Fits, pc] at fits
  obtain ⟨listed, ended, some, tried⟩ := inv
  simp only [step, observe, UpdateFirmwareThread.run, pc]
  cases unzipped : answers.unzipFile with
  | true =>
    rw [if_pos rfl]
    refine ⟨listed, ended, rfl, ?_⟩
    intro a
    rw [tried, take_zero]
  | false =>
    rw [if_neg Bool.false_ne_true]
    have kept := fits unzipped
    refine ⟨ended, iff_of_false (by simp [kept]) ?_⟩
    intro all
    obtain ⟨a, member⟩ := exists_mem_of_ne_nil _ some
    have absent := all a member
    rw [tried] at absent
    cases absent

theorem Inv.run_acceptor (inv : Inv cim session) (pc : session.thread.pc = .acceptor job i)
    (fits : session.Fits cim (.run answers)) :
    session.Right cim (.run answers) ∧ Inv cim (step cim (.run answers) session) := by
  rw [Inv, pc] at inv
  simp only [Fits, pc] at fits
  obtain ⟨listed, ended, deletes, tried⟩ := inv
  simp only [Right, step, observe, UpdateFirmwareThread.run, pc]
  by_cases more : i < job.info.acceptors.length
  case neg =>
    rw [if_neg more]
    refine ⟨fun less => absurd less more, ended, iff_of_true deletes ?_⟩
    intro a member
    rw [tried, take_of_length_le (Nat.not_lt.1 more)]
    exact member
  cases battery : answers.onBattery with
  | false =>
    rw [if_pos more, if_neg Bool.false_ne_true]
    refine ⟨?_, listed, ended, deletes, _, List.getElem?_eq_getElem more, .first tried⟩
    intro _ on
    cases on
  | true =>
    obtain ⟨list, printed⟩ := Option.isSome_iff_exists.1 (fits more battery)
    rw [if_pos more, if_pos rfl, printed]
    have some : job.info.acceptors.drop i ≠ [] := by
      intro none
      exact absurd (drop_eq_nil_iff.1 none) (Nat.not_le.2 more)
    have behind : job.info.acceptors.filter (· ∉ session.tried) = job.info.acceptors.drop i := by
      have front : ∀ a ∈ job.info.acceptors.take i, ¬decide (a ∉ session.tried) = true := by
        intro a member
        rw [decide_eq_true_eq, not_not]
        exact (tried a).2 member
      have back : ∀ a ∈ job.info.acceptors.drop i, decide (a ∉ session.tried) = true := by
        intro a member
        rw [decide_eq_true_eq, tried]
        exact fun early => disjoint_take_drop listed.nodup (Nat.le_refl i) early member
      conv_lhs => rw [← take_append_drop i job.info.acceptors]
      rw [filter_append, filter_eq_nil_iff.2 front, filter_eq_self.2 back]
      rfl
    have read := getIniFileInfo_acceptorsIdList listed.short some
      (fun a member => listed.known a (mem_of_mem_drop member)) printed
    refine ⟨fun _ _ => ?_, ended, iff_of_false Bool.false_ne_true ?_⟩
    · rw [behind]
      dsimp only [UpdateFirmwareThread.setIniFileInfo]
      rw [Function.update_self]
      exact read
    · intro all
      have here := getElem_mem more
      have early := (tried _).1 (all _ here)
      exact notMem_take listed.nodup (List.getElem?_eq_getElem more) early

theorem Inv.run_updateFirmware (inv : Inv cim session)
    (pc : session.thread.pc = .updateFirmware job i iTry)
    (fits : session.Fits cim (.run answers)) :
    session.Right cim (.run answers) ∧ Inv cim (step cim (.run answers) session) := by
  rw [Inv, pc] at inv
  simp only [Fits, pc] at fits
  obtain ⟨listed, ended, deletes, acceptor, here, ready⟩ := inv
  have fresh := notMem_take listed.nodup here
  simp only [Right, step, observe, UpdateFirmwareThread.run, pc, here]
  have right : acceptor ∉ session.tried ∨ session.tried.count acceptor = 1 ∧
      ∃ before ended, session.attempts = before ++ [⟨acceptor, ended, true⟩] := by
    cases ready with
    | first tried =>
      left
      rw [tried]
      exact fresh
    | second tried once failed => exact .inr ⟨once, _, _, failed⟩
  have mine : ∀ a, a ∈ session.tried ++ [acceptor] ↔ a ∈ job.info.acceptors.take (i + 1) := by
    cases ready with
    | first tried => exact mem_take_succ here tried
    | second tried once failed =>
      intro a
      rw [mem_append, tried, mem_singleton, or_iff_left_iff_imp]
      rintro rfl
      rw [take_add_one, here]
      exact mem_append_right _ (mem_singleton_self a)
  have count : (session.tried ++ [acceptor]).count acceptor = iTry + 1 := by
    rw [count_append, count_singleton_self]
    cases ready with
    | first tried => rw [count_eq_zero_of_not_mem (mt (tried acceptor).1 fresh)]
    | second tried once failed => rw [once]
  refine ⟨⟨ended, acceptor, rfl, right⟩, ?_⟩
  cases accepted : answers.updateFirmware with
  | true =>
    refine ⟨listed, deletes, mine, acceptor, here, count, session.attempts, false, false, ?_, ended⟩
    rfl
  | false =>
    refine ⟨ended, iff_of_true deletes ?_⟩
    intro a member
    rw [mine, fits accepted, take_length]
    exact member

theorem Inv.run_checkSuccess (inv : Inv cim session)
    (pc : session.thread.pc = .checkSuccess job i iTry)
    (fits : session.Fits cim (.run answers)) : Inv cim (step cim (.run answers) session) := by
  rw [Inv, pc] at inv
  simp only [Fits, pc] at fits
  obtain ⟨listed, deletes, tried, acceptor, here, count, before, ended, failed, last, others⟩ := inv
  obtain ⟨before', attempt, last', ended', failed'⟩ := fits
  rw [last] at last'
  obtain ⟨rfl, same⟩ := append_inj' last' rfl
  cases same
  have all : AllEnded session.attempts := by
    intro attempt member
    rw [last] at member
    rcases mem_append.1 member with early | late
    · exact others attempt early
    · rw [mem_singleton.1 late]
      exact ended'
  simp only [step, observe, UpdateFirmwareThread.run, pc]
  cases success : session.thread.myUpgradeIsSuccess with
  | true => exact ⟨listed, all, deletes, tried⟩
  | false =>
    rw [if_neg Bool.false_ne_true]
    split
    · rename_i first
      obtain rfl : iTry = 0 := by omega
      have again : session.attempts = before ++ [⟨acceptor, ended, true⟩] := by
        rw [last, show failed = true from failed' rfl success]
      exact ⟨listed, all, deletes, acceptor, here, .second tried count again⟩
    · exact ⟨listed, all, deletes, tried⟩

theorem Inv.run_unlink (inv : Inv cim session) (pc : session.thread.pc = .unlink job) :
    session.Right cim (.run answers) ∧ Inv cim (step cim (.run answers) session) := by
  rw [Inv, pc] at inv
  obtain ⟨ended, deletes⟩ := inv
  simp only [Right, step, observe, UpdateFirmwareThread.run, pc]
  by_cases left : ∃ acceptor ∈ job.info.acceptors, acceptor ∉ session.tried
  · have kept : session.thread.myCanDeleteUpgrade = false := by
      rw [Bool.eq_false_iff]
      intro done
      obtain ⟨a, member, untried⟩ := left
      exact untried (deletes.1 done a member)
    rw [if_pos left, kept]
    exact ⟨⟨rfl, rfl⟩, ended⟩
  · have done : session.thread.myCanDeleteUpgrade = true := by
      rw [deletes]
      intro a member
      by_contra untried
      exact left ⟨a, member, untried⟩
    rw [if_neg left, done]
    exact ⟨⟨Function.update_self .., Function.update_self ..⟩, ended⟩

end

theorem Inv.step (inv : Inv cim session) (event : Event) (fits : session.Fits cim event) :
    Inv cim (step cim event session) ∧ session.Right cim event := by
  cases event with
  | deliver fileName ini => exact ⟨inv.deliver fileName ini, trivial⟩
  | onFirmwareUpdateProgress number aProgress =>
    exact ⟨inv.onFirmwareUpdateProgress number aProgress, trivial⟩
  | run answers =>
    cases pc : session.thread.pc with
    | sleep =>
      rw [Inv, pc] at inv
      refine ⟨?_, by simp only [Right, pc]⟩
      simp only [Session.step, observe, UpdateFirmwareThread.run, pc]
      exact inv
    | checkForNewUpdates files =>
      exact ⟨inv.run_checkForNewUpdates pc fits, by simp only [Right, pc]⟩
    | unzipFile job => exact ⟨inv.run_unzipFile pc fits, by simp only [Right, pc]⟩
    | acceptor job i => exact (inv.run_acceptor pc fits).symm
    | updateFirmware job i iTry => exact (inv.run_updateFirmware pc fits).symm
    | waitFinish job i iTry =>
      refine ⟨?_, by simp only [Right, pc]⟩
      simp only [Session.step, observe, UpdateFirmwareThread.run, pc]
      split
      · exact inv
      · rw [Inv, pc] at inv
        exact ⟨inv.1, inv.2.deletes, inv.2.tried, inv.2.last⟩
    | checkSuccess job i iTry =>
      exact ⟨inv.run_checkSuccess pc fits, by simp only [Right, pc]⟩
    | stopUpgrade job =>
      rw [Inv, pc] at inv
      refine ⟨?_, by simp only [Right, pc]⟩
      simp only [Session.step, observe, UpdateFirmwareThread.run, pc]
      exact inv
    | unlink job => exact (inv.run_unlink pc).symm
    | ended =>
      refine ⟨?_, by simp only [Right, pc]⟩
      simp only [Session.step, observe, UpdateFirmwareThread.run, pc]
      exact inv

/-! ## Runs -/

theorem always_right (cim : List AcceptorSettings) (events : List Event)
    (fits : Always (step cim) (Fits cim) events start) :
    Always (step cim) (Right cim) events start :=
  Always.of_invariant (Inv cim) (fun inv fits => inv.step _ fits) inv_start fits

/-- Two validators, and an update file for both. -/
def twoValidators : List AcceptorSettings := [⟨1, .validator⟩, ⟨2, .validator⟩]

/-- What the calls answer when nothing goes wrong. -/
def goesWell : Answers := ⟨[[0x66]], true, false, true⟩

/-- The first validator is updated, and then the second one. -/
theorem always_right_both :
    let events : List Event :=
      [.deliver [0x66] ⟨[0x31, 0x2C, 0x32], [0x67]⟩, .run goesWell, .run goesWell, .run goesWell,
        .run goesWell, .run goesWell, .onFirmwareUpdateProgress 0 100, .run goesWell,
        .run goesWell, .run goesWell, .run goesWell, .onFirmwareUpdateProgress 1 100,
        .run goesWell, .run goesWell, .run goesWell, .run goesWell, .run goesWell]
    Always (step twoValidators) (Right twoValidators) events start := by
  intro events
  apply always_right
  refine ⟨trivial, trivial, ⟨⟨[0x67], twoValidators⟩, by decide +kernel, by decide, ?_⟩, ?_⟩
  · intro none
    cases none
  refine ⟨?_, ?_, ?_, trivial, trivial, ⟨[], ⟨⟨1, .validator⟩, true, false⟩, rfl, rfl, ?_⟩, ?_⟩
  · intro no
    cases no
  · intro _ no
    cases no
  · intro no
    cases no
  · intro _ no
    cases no
  refine ⟨?_, ?_, trivial, trivial,
    ⟨[⟨⟨1, .validator⟩, true, false⟩], ⟨⟨2, .validator⟩, true, false⟩, rfl, rfl, ?_⟩, ?_⟩
  · intro _ no
    cases no
  · intro no
    cases no
  · intro _ no
    cases no
  refine ⟨?_, trivial, trivial, trivial⟩
  intro _ no
  cases no

/-- The first validator fails and is tried again; that try is not waited for. -/
theorem not_always_right :
    let events : List Event :=
      [.deliver [0x66] ⟨[0x31, 0x2C, 0x32], [0x67]⟩, .run goesWell, .run goesWell, .run goesWell,
        .run goesWell, .run goesWell, .onFirmwareUpdateProgress 0 255, .run goesWell,
        .run goesWell, .run goesWell, .run goesWell, .run goesWell, .run goesWell]
    ¬Always (step twoValidators) (Right twoValidators) (events ++ [.run goesWell]) start := by
  intro events right
  obtain ⟨ended, -⟩ := ((Always.append_iff events [.run goesWell] start).1 right).2.1
  have running : (⟨⟨1, .validator⟩, false, false⟩ : Attempt) ∈
      (after (step twoValidators) events start).attempts := by
    decide +kernel
  cases ended _ running

end CimArm.UpdateFirmware
