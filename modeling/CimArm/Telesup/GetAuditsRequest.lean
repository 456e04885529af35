import CimArm.Dao.Fields
import CimArm.Db.Alignment
import CimArm.Db.Scan
import CimArm.Lib.Watermark
import Mathlib.Algebra.Order.BigOperators.Group.List

/-!
# Requests for audits not transferred yet

Audits are sent by id, with two numbers kept: the last audit and the last alarm
transferred.  A request for alarms sends the critical audits after the last alarm; a
complete request sends all audits, from the smaller of the two on, and skips what each
number says was sent.  Both move the last alarm to the last record they come to, critical
or not.

* `generateRequestDataFile_spec`: what a request writes, where a complete request that
  starts behind the last alarm comes to it again and does not send it.
-/

namespace CimArm.GetAudits

open MultiPart List

def MAX_AUDITS_FILE_SIZE : Nat := 128000

/-- What a request is made for: the table of audits with its events, and what a record is
formatted to, in bytes. -/
structure GetAuditsRequest (R : Type) : Type where
  schema : MultiPartSchema R
  isCriticalAudit : R → Bool
  formatAudit : R → Nat

/-- The file that is written, its size and the numbers to store. -/
structure AuditFile (R : Type) : Type where
  records : List R
  fileSize : Nat
  nextLastAuditId : Nat
  nextLastAlarmId : Nat

variable {R : Type}

/-- Size 0 is no limit. -/
def reachMaxFileSize (aSize aMaxFileSize : Nat) : Bool := aMaxFileSize ≠ 0 ∧ aMaxFileSize < aSize

namespace GetAuditsRequest

variable (req : GetAuditsRequest R)

def auditId : R → Nat := req.schema.idField.get

/-- The numbers that a record is compared with, and the id to start from. -/
structure Range : Type where
  lastAuditId : Nat
  lastAlarmId : Nat
  fromId : Nat

/-- Only the number to start from is incremented. -/
def range (transferOnlyCritical : Bool) (lastAuditId lastAlarmId : Nat) : Range :=
  if transferOnlyCritical then
    ⟨lastAuditId, toULong (lastAlarmId + 1), toULong (lastAlarmId + 1)⟩
  else if lastAuditId < lastAlarmId then
    ⟨toULong (lastAuditId + 1), lastAlarmId, toULong (lastAuditId + 1)⟩
  else ⟨lastAuditId, toULong (lastAlarmId + 1), toULong (lastAlarmId + 1)⟩

/-- An audit that is no alarm and not sent yet, in a complete request. -/
def isNewAudit (transferOnlyCritical : Bool) (range : Range) (r : R) : Bool :=
  !transferOnlyCritical && !req.isCriticalAudit r && decide (range.lastAuditId ≤ req.auditId r)

def formatRecord (transferOnlyCritical : Bool) (range : Range) (r : R) : Bool :=
  transferOnlyCritical && req.isCriticalAudit r ||
    req.isNewAudit transferOnlyCritical range r ||
    !transferOnlyCritical && req.isCriticalAudit r && decide (range.lastAlarmId ≤ req.auditId r)

/-- The body of the loop. -/
def visit (transferOnlyCritical : Bool) (range : Range) (writes : Nat → Bool)
    (file : AuditFile R) (r : R) : Visit (AuditFile R) :=
  let file := { file with
    nextLastAlarmId := req.auditId r
    nextLastAuditId := if req.isNewAudit transferOnlyCritical range r then req.auditId r
      else file.nextLastAuditId }
  if req.formatRecord transferOnlyCritical range r then
    -- assert(n > 0)
    if req.formatAudit r = 0 then .raise
    else if writes file.records.length then
      let file := { file with
        records := file.records ++ [r], fileSize := toULong (file.fileSize + req.formatAudit r) }
      if reachMaxFileSize file.fileSize MAX_AUDITS_FILE_SIZE then .stop file else .next file
    else .raise
  else .next file

/-- The filter of the record set that starts at an id. -/
def checkCondition (aFromId : Nat) (r : R) : Bool := aFromId = 0 || aFromId ≤ req.auditId r

/-- A new record set over the files of the table, filtered and opened. -/
def getNewAuditsRecordSetById (table : MultiPart R) (aFromId : Nat) : MultiPart R :=
  (filteredFind req.schema (req.checkCondition aFromId)
    (MultiPart.open req.schema table.parts table.indexTable)).2

/-- The loop from the current record on. -/
def writeFrom (transferOnlyCritical : Bool) (range : Range) (writes : Nat → Bool)
    (start : AuditFile R) (rs : MultiPart R) : Option (AuditFile R) :=
  rs.scan (findNext req.schema (req.checkCondition range.fromId))
    (req.visit transferOnlyCritical range writes) (rs.stored.length + 1) start

/-- The file of a request with the filter `NOT_TRANSFER_INFO_FILTER`; nothing after an
exception. -/
def generateRequestDataFile (table : MultiPart R) (transferOnlyCritical : Bool)
    (writes : Nat → Bool) (lastAuditId lastAlarmId : Nat) : Option (AuditFile R) :=
  let (found, rs) := ((req.getNewAuditsRecordSetById table
      (range transferOnlyCritical lastAuditId lastAlarmId).fromId).moveBeforeFirst
    req.schema).2.findById req.schema req.schema.idField
      (range transferOnlyCritical lastAuditId lastAlarmId).fromId
  if found then
    req.writeFrom transferOnlyCritical (range transferOnlyCritical lastAuditId lastAlarmId) writes
      ⟨[], 0, lastAuditId, lastAlarmId⟩ rs
  else
    let (atEnd, rs) := (filteredFind req.schema (req.checkCondition
      (range transferOnlyCritical lastAuditId lastAlarmId).fromId) rs).2.eof
    if atEnd || decide (req.auditId rs.data.buffer ≤
        (range transferOnlyCritical lastAuditId lastAlarmId).fromId) then
      some ⟨[], 0, lastAuditId, lastAlarmId⟩
    else
      req.writeFrom transferOnlyCritical (range transferOnlyCritical lastAuditId lastAlarmId) writes
        ⟨[], 0, lastAuditId, lastAlarmId⟩ rs

/-! ## What the loop writes -/

section loop

variable {req} {transferOnlyCritical : Bool} {range : Range} {writes : Nat → Bool}

/-- The loop comes to the first of the records: it writes those of them that are to be sent,
stores the last one and the last new audit, and stops only when the file is full. -/
theorem scanRows_visit (rs : List R) (file : AuditFile R) {file' : AuditFile R}
    (run : scanRows (req.visit transferOnlyCritical range writes) rs file = some file') :
    ∃ p q, p ++ q = rs ∧
      file'.records = file.records ++ p.filter (req.formatRecord transferOnlyCritical range) ∧
      file'.nextLastAlarmId = (p.getLast?.map req.auditId).getD file.nextLastAlarmId ∧
      file'.nextLastAuditId = ((p.filter (req.isNewAudit transferOnlyCritical range)).getLast?.map
        req.auditId).getD file.nextLastAuditId ∧
      (q = [] ∨ MAX_AUDITS_FILE_SIZE < file.fileSize +
        ((p.filter (req.formatRecord transferOnlyCritical range)).map req.formatAudit).sum) := by
  induction rs generalizing file with
  | nil =>
    obtain rfl := Option.some.inj run
    exact ⟨[], [], rfl, (append_nil _).symm, rfl, rfl, .inl rfl⟩
  | cons r rs ih =>
    -- the numbers after the record, whatever was before it
    have alarm (p : List R) (n : Nat) : (p.getLast?.map req.auditId).getD (req.auditId r) =
        ((r :: p).getLast?.map req.auditId).getD n := by
      rw [List.getLast?_cons]
      cases p.getLast? <;> rfl
    have audit (p : List R) (n : Nat) :
        ((p.filter (req.isNewAudit transferOnlyCritical range)).getLast?.map req.auditId).getD
          (if req.isNewAudit transferOnlyCritical range r then req.auditId r else n) =
        (((r :: p).filter (req.isNewAudit transferOnlyCritical range)).getLast?.map
          req.auditId).getD n := by
      cases new : req.isNewAudit transferOnlyCritical range r with
      | true =>
        rw [filter_cons_of_pos new, List.getLast?_cons, if_pos rfl]
        cases (p.filter (req.isNewAudit transferOnlyCritical range)).getLast? <;> rfl
      | false =>
        rw [filter_cons_of_neg (Bool.not_eq_true _ ▸ new), if_neg Bool.false_ne_true]
    rw [scanRows, visit] at run
    cases sent : req.formatRecord transferOnlyCritical range r with
    | false =>
      rw [sent, if_neg Bool.false_ne_true] at run
      obtain ⟨p, q, split, records, lastAlarm, lastAudit, full⟩ := ih _ run
      refine ⟨r :: p, q, congrArg (r :: ·) split, ?_, ?_, ?_, ?_⟩
      · rw [records, filter_cons_of_neg (Bool.not_eq_true _ ▸ sent)]
      · rw [lastAlarm, ← alarm]
      · rw [lastAudit, ← audit]
      · rw [filter_cons_of_neg (Bool.not_eq_true _ ▸ sent)]
        exact full
    | true =>
      rw [sent, if_pos rfl] at run
      dsimp only at run
      by_cases empty : req.formatAudit r = 0
      · rw [if_pos empty] at run
        cases run
      rw [if_neg empty] at run
      cases written : writes file.records.length with
      | false =>
        rw [written] at run
        cases run
      | true =>
        have size : toULong (file.fileSize + req.formatAudit r) ≤
            file.fileSize + req.formatAudit r := Nat.mod_le _ _
        rw [written, if_pos rfl] at run
        by_cases cut : reachMaxFileSize (toULong (file.fileSize + req.formatAudit r))
            MAX_AUDITS_FILE_SIZE = true
        · rw [if_pos cut] at run
          obtain rfl := Option.some.inj run
          have one : [r].filter (req.formatRecord transferOnlyCritical range) = [r] :=
            filter_cons_of_pos sent
          refine ⟨[r], rs, rfl, by rw [one], rfl, (audit [] _), .inr ?_⟩
          rw [one, map_singleton, sum_singleton]
          exact Nat.lt_of_lt_of_le (of_decide_eq_true cut).2 size
        · rw [if_neg cut] at run
          obtain ⟨p, q, split, records, lastAlarm, lastAudit, full⟩ := ih _ run
          refine ⟨r :: p, q, congrArg (r :: ·) split, ?_, ?_, ?_, ?_⟩
          · rw [records, filter_cons_of_pos sent, append_assoc, singleton_append]
          · rw [lastAlarm, ← alarm]
          · rw [lastAudit, ← audit]
          · refine full.imp_right fun more => Nat.lt_of_lt_of_le more ?_
            rw [filter_cons_of_pos sent, map_cons, sum_cons]
            dsimp only
            omega

end loop

/-! ## What a request writes -/

/-- The audits that are no alarms. -/
def isAudit (r : R) : Bool := !req.isCriticalAudit r

theorem isAudit_iff {r : R} : req.isAudit r = true ↔ req.isCriticalAudit r = false := by
  rw [isAudit, Bool.not_eq_true']

/-- A complete request that starts behind the last alarm comes back to it: that record is no
alarm, and the audits up to it fit in one file. Ids are those of a `long`. -/
structure Meets (rows : List R) (transferOnlyCritical : Bool) (lastAuditId lastAlarmId : Nat) :
    Prop where
  alarm_lt : lastAlarmId < 2 ^ 31
  id_lt : ∀ r ∈ rows, req.auditId r < 2 ^ 31
  behind : transferOnlyCritical = false → lastAuditId < lastAlarmId →
    (∀ r ∈ rows, req.auditId r = lastAlarmId → req.isCriticalAudit r = false) ∧
    ((rows.filter fun r => req.isAudit r && decide (lastAuditId < req.auditId r ∧
      req.auditId r < lastAlarmId)).map req.formatAudit).sum ≤ MAX_AUDITS_FILE_SIZE

/-- The alarms of the file are those after the last alarm up to the next, and its other
audits those after the last audit up to the next. -/
structure Writes (rows : List R) (transferOnlyCritical : Bool) (lastAuditId lastAlarmId : Nat)
    (file : AuditFile R) : Prop where
  alarms : file.records.filter req.isCriticalAudit =
    Watermark.between req.auditId req.isCriticalAudit rows lastAlarmId file.nextLastAlarmId
  audits : file.records.filter req.isAudit =
    Watermark.between req.auditId req.isAudit rows lastAuditId file.nextLastAuditId
  alarm_le : lastAlarmId ≤ file.nextLastAlarmId
  audit_le : lastAuditId ≤ file.nextLastAuditId
  alarm_reached : file.nextLastAlarmId = lastAlarmId ∨
    ∃ r ∈ rows, req.auditId r = file.nextLastAlarmId
  audit_reached : file.nextLastAuditId = lastAuditId ∨
    ∃ r ∈ rows, req.auditId r = file.nextLastAuditId
  order : file.nextLastAuditId ≤ file.nextLastAlarmId
  only_alarms : transferOnlyCritical = true → ∀ r ∈ file.records, req.isCriticalAudit r = true
  passed : transferOnlyCritical = false → ∀ r ∈ rows, req.isAudit r = true →
    req.auditId r ≤ file.nextLastAlarmId → req.auditId r ≤ file.nextLastAuditId

section spec

variable {req} {rows : List R} {only : Bool} {lastAuditId lastAlarmId : Nat}
  {writes : Nat → Bool}

theorem Writes.nothing (order : lastAuditId ≤ lastAlarmId)
    (passed : only = false → ∀ r ∈ rows, req.isAudit r = true → req.auditId r ≤ lastAlarmId →
      req.auditId r ≤ lastAuditId) :
    req.Writes rows only lastAuditId lastAlarmId ⟨[], 0, lastAuditId, lastAlarmId⟩ where
  alarms := Watermark.between_self.symm
  audits := Watermark.between_self.symm
  alarm_le := Nat.le_refl _
  audit_le := Nat.le_refl _
  alarm_reached := .inl rfl
  audit_reached := .inl rfl
  order := order
  only_alarms := fun _ _ none => nomatch none
  passed := passed

variable (only) in
theorem range_cases (small : lastAlarmId < 2 ^ 31) (order : lastAuditId ≤ lastAlarmId) :
    (only = true ∧ range only lastAuditId lastAlarmId =
      ⟨lastAuditId, lastAlarmId + 1, lastAlarmId + 1⟩) ∨
    (only = false ∧ lastAuditId = lastAlarmId ∧ range only lastAuditId lastAlarmId =
      ⟨lastAuditId, lastAlarmId + 1, lastAlarmId + 1⟩) ∨
    (only = false ∧ lastAuditId < lastAlarmId ∧ range only lastAuditId lastAlarmId =
      ⟨lastAuditId + 1, lastAlarmId, lastAuditId + 1⟩) := by
  have alarm : toULong (lastAlarmId + 1) = lastAlarmId + 1 :=
    toULong_of_lt (by rw [ulongSize]; omega)
  have audit : toULong (lastAuditId + 1) = lastAuditId + 1 :=
    toULong_of_lt (by rw [ulongSize]; omega)
  rw [range, alarm, audit]
  cases only with
  | true => exact .inl ⟨rfl, rfl⟩
  | false =>
    rcases Nat.lt_or_eq_of_le order with behind | same
    · exact .inr (.inr ⟨rfl, behind, by rw [if_neg Bool.false_ne_true, if_pos behind]⟩)
    · exact .inr (.inl ⟨rfl, same, by
        rw [if_neg Bool.false_ne_true, if_neg (Nat.not_lt.2 (Nat.le_of_eq same.symm))]⟩)

/-- From the id to start from on, the audits sent are those after the last audit, and the
alarms those after the last alarm. -/
theorem formatRecord_iff (meets : req.Meets rows only lastAuditId lastAlarmId)
    (order : lastAuditId ≤ lastAlarmId) {r : R} (hr : r ∈ rows)
    (ahead : (range only lastAuditId lastAlarmId).fromId ≤ req.auditId r) :
    (req.isCriticalAudit r = true →
      (req.formatRecord only (range only lastAuditId lastAlarmId) r = true ↔
        lastAlarmId < req.auditId r)) ∧
    (req.isCriticalAudit r = false →
      (req.formatRecord only (range only lastAuditId lastAlarmId) r = true ↔ only = false)) ∧
    (req.isNewAudit only (range only lastAuditId lastAlarmId) r = true ↔
      only = false ∧ req.isCriticalAudit r = false) ∧ lastAuditId < req.auditId r := by
  rcases range_cases only meets.alarm_lt order with
    ⟨rfl, eq⟩ | ⟨rfl, same, eq⟩ | ⟨rfl, behind, eq⟩
  · rw [eq] at ahead ⊢
    dsimp only at ahead
    cases critical : req.isCriticalAudit r <;>
      simp [GetAuditsRequest.formatRecord, isNewAudit, critical] <;> omega
  · rw [eq] at ahead ⊢
    dsimp only at ahead
    cases critical : req.isCriticalAudit r <;>
      simp [GetAuditsRequest.formatRecord, isNewAudit, critical] <;> omega
  · rw [eq] at ahead ⊢
    dsimp only at ahead
    have other := (meets.behind rfl behind).1 r hr
    cases critical : req.isCriticalAudit r with
    | true =>
      have differs : req.auditId r ≠ lastAlarmId := fun same => by
        rw [other same] at critical
        cases critical
      simp [GetAuditsRequest.formatRecord, isNewAudit, critical]
      omega
    | false =>
      simp [GetAuditsRequest.formatRecord, isNewAudit, critical]
      omega

variable (only) in
theorem fromId_eq (small : lastAlarmId < 2 ^ 31) (order : lastAuditId ≤ lastAlarmId) :
    (range only lastAuditId lastAlarmId).fromId =
      if only then lastAlarmId + 1 else lastAuditId + 1 := by
  rcases range_cases only small order with
    ⟨rfl, eq⟩ | ⟨rfl, same, eq⟩ | ⟨rfl, behind, eq⟩
  · rw [eq, if_pos rfl]
  · rw [eq, if_neg Bool.false_ne_true, same]
  · rw [eq, if_neg Bool.false_ne_true]

theorem Writes.scan (meets : req.Meets rows only lastAuditId lastAlarmId)
    (order : lastAuditId ≤ lastAlarmId)
    (reach : lastAuditId = lastAlarmId ∨ ∃ r ∈ rows, lastAlarmId ≤ req.auditId r)
    (increasing : rows.Pairwise fun a b => req.auditId a < req.auditId b) (i : Nat)
    (below : ∀ r ∈ rows.take i,
      req.auditId r < (GetAuditsRequest.range only lastAuditId lastAlarmId).fromId)
    (above : ∀ r ∈ rows.drop i,
      (GetAuditsRequest.range only lastAuditId lastAlarmId).fromId ≤ req.auditId r)
    (some_ahead : rows.drop i ≠ []) {file : AuditFile R}
    (run : scanRows (req.visit only (GetAuditsRequest.range only lastAuditId lastAlarmId) writes)
      (rows.drop i) ⟨[], 0, lastAuditId, lastAlarmId⟩ = some file) :
    req.Writes rows only lastAuditId lastAlarmId file := by
  obtain ⟨p, q, split, records, alarm, audit, full⟩ := scanRows_visit _ _ run
  have format {r : R} (hr : r ∈ p) :=
    have ahead : r ∈ rows.drop i := split ▸ mem_append_left q hr
    formatRecord_iff meets order (mem_of_mem_drop ahead) (above r ahead)
  have fromId := fromId_eq only meets.alarm_lt order
  obtain ⟨first, first_eq⟩ : ∃ first,
    first = (GetAuditsRequest.range only lastAuditId lastAlarmId).fromId := ⟨_, rfl⟩
  rw [← first_eq] at fromId below above
  have high : first ≤ lastAlarmId + 1 := by
    rw [fromId]
    split_ifs <;> omega
  -- the loop comes to some record
  have nonempty : p ≠ [] := by
    rintro rfl
    rcases full with rfl | more
    · exact some_ahead split.symm
    · exact absurd more (Nat.not_lt_zero _)
  obtain ⟨last, last_eq⟩ : ∃ last, p.getLast? = some last :=
    ⟨_, List.getLast?_eq_some_getLast nonempty⟩
  rw [last_eq] at alarm
  change file.nextLastAlarmId = req.auditId last at alarm
  have hlast : last ∈ p := mem_of_getLast? last_eq
  have ordered : (p ++ q).Pairwise fun a b => req.auditId a < req.auditId b :=
    split ▸ increasing.sublist (drop_sublist i rows)
  obtain ⟨inside, -, across⟩ := pairwise_append.1 ordered
  have upTo {r : R} (hr : r ∈ p) : req.auditId r ≤ req.auditId last := by
    have le := @Watermark.le_last _ _ _ 0 inside _ hr
    rw [last_eq] at le
    exact le
  have past {r : R} (hr : r ∈ q) : req.auditId last < req.auditId r := across last hlast r hr
  have low {r : R} (hr : r ∈ p) : first ≤ req.auditId r :=
    above r (split ▸ mem_append_left q hr)
  have parts : rows.take i ++ (p ++ q) = rows := by rw [split, take_append_drop]
  have inRows {r : R} (hr : r ∈ p) : r ∈ rows :=
    parts ▸ mem_append_right _ (mem_append_left _ hr)
  -- it is not cut before it comes to the last alarm again
  have alarm_le : lastAlarmId ≤ req.auditId last := by
    refine Nat.le_of_not_lt fun cut => ?_
    have start := low hlast
    rw [fromId] at start
    cases only with
    | true =>
      rw [if_pos rfl] at start
      omega
    | false =>
      rw [if_neg Bool.false_ne_true] at start fromId
      have behind : lastAuditId < lastAlarmId := by omega
      have fits := (meets.behind rfl behind).2
      rcases full with rfl | more
      · obtain ⟨r, hr, far⟩ := reach.resolve_left (Nat.ne_of_lt behind)
        rw [← parts, append_nil] at hr
        rcases mem_append.1 hr with before | here
        · have := below r before
          omega
        · have := upTo here
          omega
      · -- all that was written is no alarm and lies between the two numbers
        have sub : (p.filter (req.formatRecord false
            (GetAuditsRequest.range false lastAuditId lastAlarmId))).Sublist
            (rows.filter fun r => req.isAudit r && decide (lastAuditId < req.auditId r ∧
              req.auditId r < lastAlarmId)) := by
          have whole : p.Sublist rows :=
            (sublist_append_left p q).trans (split ▸ drop_sublist i rows)
          have among := (filter_sublist (p := req.formatRecord false
            (GetAuditsRequest.range false lastAuditId lastAlarmId)).trans whole).filter
              fun r => req.isAudit r && decide (lastAuditId < req.auditId r ∧
                req.auditId r < lastAlarmId)
          rwa [filter_eq_self.2 fun r hr => ?_] at among
          obtain ⟨hp, sent⟩ := mem_filter.1 hr
          have upper := upTo hp
          have lower := low hp
          cases critical : req.isCriticalAudit r with
          | true =>
            have := ((format hp).1 critical).1 sent
            omega
          | false =>
            rw [isAudit, critical, decide_eq_true (by omega)]
            rfl
        have sums := (sub.map req.formatAudit).sum_le_sum fun _ _ => Nat.zero_le _
        dsimp only at more
        omega
  -- from there on the new audits are all that are no alarms, in a complete request
  have new : only = false → p.filter
      (req.isNewAudit only (GetAuditsRequest.range only lastAuditId lastAlarmId)) =
        p.filter req.isAudit := by
    intro complete
    refine filter_congr fun r hr => ?_
    rw [Bool.eq_iff_iff, (format hr).2.2.1, isAudit_iff, and_iff_right complete]
  have mark : lastAuditId ≤ file.nextLastAuditId ∧ (file.nextLastAuditId = lastAuditId ∨
      ∃ r ∈ p, req.auditId r = file.nextLastAuditId) := by
    have after := Watermark.last_or
      (l := p.filter (req.isNewAudit only (GetAuditsRequest.range only lastAuditId lastAlarmId)))
      fun r hr => (format (mem_of_mem_filter hr)).2.2.2
    rw [← audit] at after
    refine ⟨after.1, after.2.imp_right ?_⟩
    rintro ⟨r, hr, same⟩
    exact ⟨r, mem_of_mem_filter hr, same⟩
  refine ⟨?_, ?_, ?_, mark.1, ?_, ?_, ?_, ?_, ?_⟩
  · rw [alarm, records, nil_append, filter_filter, ← parts,
      Watermark.between_append (fun r hr _ => ?_) (fun r hr _ => upTo hr) fun r hr _ => past hr]
    · refine filter_congr fun r hr => ?_
      cases critical : req.isCriticalAudit r with
      | true => rw [Bool.true_and, Bool.and_true, Bool.eq_iff_iff, decide_eq_true_eq,
          (format hr).1 critical]
      | false => rw [Bool.false_and, Bool.and_false]
    · have := below r hr
      omega
  · rw [records, nil_append, filter_filter]
    cases only with
    | true =>
      have none : file.nextLastAuditId = lastAuditId := by
        rw [audit, filter_eq_nil_iff.2 fun r hr isNew => ?_]
        · rfl
        · cases ((format hr).2.2.1.1 isNew).1
      rw [none, Watermark.between_self, filter_eq_nil_iff]
      intro r hr both
      obtain ⟨noAlarm, sent⟩ := Bool.and_eq_true_iff.1 both
      cases ((format hr).2.1 (req.isAudit_iff.1 noAlarm)).1 sent
    | false =>
      rw [if_neg Bool.false_ne_true] at fromId
      have all : p.filter (fun r => req.isAudit r && req.formatRecord false
          (GetAuditsRequest.range false lastAuditId lastAlarmId) r) = p.filter req.isAudit := by
        refine filter_congr fun r hr => ?_
        cases critical : req.isCriticalAudit r with
        | true => rw [isAudit, critical]; rfl
        | false => rw [((format hr).2.1 critical).2 rfl, Bool.and_true]
      have taken := @Watermark.prefix_eq_between _ _ _ _ _ (p.filter req.isAudit) lastAuditId
        (fun r hr _ => by have := below r hr; omega)
        (fun r hr _ => by have := above r (split ▸ hr); omega)
        (ordered.sublist filter_sublist)
        (filter_append (p := req.isAudit) p q ▸ prefix_append _ _)
      rw [parts, ← new rfl] at taken
      rw [all, ← new rfl, audit]
      exact taken
  · exact alarm ▸ alarm_le
  · exact .inr ⟨last, inRows hlast, alarm.symm⟩
  · refine mark.2.imp_right ?_
    rintro ⟨r, hr, same⟩
    exact ⟨r, inRows hr, same⟩
  · rw [alarm]
    rcases mark.2 with same | ⟨r, hr, same⟩
    · exact same ▸ Nat.le_trans order alarm_le
    · exact same ▸ upTo hr
  · intro alarms r hr
    rw [records, nil_append] at hr
    obtain ⟨hp, sent⟩ := mem_filter.1 hr
    refine Bool.not_eq_false _ ▸ fun noAlarm => ?_
    cases alarms.symm.trans (((format hp).2.1 noAlarm).1 sent)
  · intro complete r hr noAlarm le
    rw [← parts] at hr
    rw [alarm] at le
    rcases mem_append.1 hr with before | ahead
    · have := below r before
      rw [fromId, complete, if_neg Bool.false_ne_true] at this
      exact Nat.le_trans (Nat.le_of_lt_succ this) mark.1
    · rcases mem_append.1 ahead with here | later
      · rw [audit, new complete]
        exact Watermark.le_last (inside.sublist filter_sublist)
          (mem_filter.2 ⟨here, noAlarm⟩)
      · exact absurd le (Nat.not_le.2 (past later))

theorem generateRequestDataFile_spec {table : MultiPart R}
    (shaped : table.content.Shaped req.schema)
    (increasing : table.content.stored.Pairwise fun a b => req.auditId a < req.auditId b)
    (meets : req.Meets table.content.stored only lastAuditId lastAlarmId)
    (order : lastAuditId ≤ lastAlarmId)
    (reach : lastAuditId = lastAlarmId ∨
      ∃ r ∈ table.content.stored, lastAlarmId ≤ req.auditId r) {file : AuditFile R}
    (run : req.generateRequestDataFile table only writes lastAuditId lastAlarmId = some file) :
    req.Writes table.content.stored only lastAuditId lastAlarmId file := by
  obtain ⟨rows, rows_eq⟩ : ∃ rows, rows = table.content.stored := ⟨_, rfl⟩
  have filled : table.content.Filled := fun row hrow => (shaped.describes row hrow).nonempty
  have sorted : table.content.Sorted req.schema :=
    shaped.sorted (increasing.imp fun less => Nat.le_of_lt less)
  have fromId := fromId_eq only meets.alarm_lt order
  obtain ⟨first, first_eq⟩ : ∃ first,
    first = (GetAuditsRequest.range only lastAuditId lastAlarmId).fromId := ⟨_, rfl⟩
  rw [← rows_eq] at increasing meets reach ⊢
  have positive : first ≠ 0 := by
    rw [first_eq, fromId]
    split_ifs <;> omega
  have passes (r : R) : req.checkCondition first r = true ↔ first ≤ req.auditId r := by
    rw [GetAuditsRequest.checkCondition, Bool.or_eq_true, decide_eq_true_eq, decide_eq_true_eq,
      or_iff_right positive]
  have short {r : R} (fails : req.checkCondition first r = false) : req.auditId r < first := by
    refine Nat.lt_of_not_le fun more => ?_
    rw [(passes r).2 more] at fails
    cases fails
  have mono := pairwise_iff_getElem.1 increasing
  -- the loop from the record at a place
  have loop : ∀ (s : MultiPart R) (i : Nat) (r : R), s.Synced → s.content = table.content →
      s.AtRecord i → rows[i]? = some r → first ≤ req.auditId r →
      (∀ a ∈ rows.take i, req.auditId a < first) →
      req.writeFrom only (GetAuditsRequest.range only lastAuditId lastAlarmId) writes
        ⟨[], 0, lastAuditId, lastAlarmId⟩ s = some file →
      req.Writes rows only lastAuditId lastAlarmId file := by
    intro s i r sync same here read le below run
    have length : s.stored.length = s.content.stored.length := rfl
    obtain ⟨lt, at_⟩ := List.getElem?_eq_some_iff.1 read
    have above : ∀ a ∈ rows.drop i, first ≤ req.auditId a := by
      intro a ha
      obtain ⟨j, hj, rfl⟩ := mem_drop_iff_getElem.1 ha
      rcases Nat.eq_zero_or_pos j with rfl | later
      · exact at_.symm ▸ le
      · have := mono i (i + j) lt (by omega) (by omega)
        rw [at_] at this
        omega
    have pass : ∀ j a, i ≤ j → s.content.stored[j]? = some a →
        req.checkCondition first a = true := by
      intro j a le ha
      rw [same, ← rows_eq] at ha
      refine (passes a).2 (above a (mem_of_getElem? (i := j - i) ?_))
      rw [List.getElem?_drop, Nat.add_sub_cancel' le]
      exact ha
    have scanned := AtRecord.scan (req.visit only
      (GetAuditsRequest.range only lastAuditId lastAlarmId) writes) (s.stored.length + 1)
      ⟨[], 0, lastAuditId, lastAlarmId⟩
      (advances_findNext req.schema (same ▸ filled) (req.checkCondition first) i pass) sync here
      (by omega)
    rw [writeFrom, ← first_eq, scanned, same, ← rows_eq] at run
    refine Writes.scan meets order reach increasing i (first_eq ▸ below) (first_eq ▸ above) ?_ run
    exact ne_nil_of_length_pos (by rw [length_drop]; omega)
  obtain ⟨sync, content⟩ := synced_open req.schema table.parts table.indexTable shaped.count
    fun empty => shaped.fresh 0 (by simp [MultiPart.content, empty])
  change (MultiPart.open req.schema table.parts table.indexTable).content = table.content at content
  obtain ⟨opened, -⟩ := sync.filteredFind_places req.schema (content ▸ filled)
    (req.checkCondition first)
  have rewound := opened.2.moves_moveBeforeFirst req.schema
  have content₁ := rewound.1.content.trans (opened.1.content.trans content)
  rw [generateRequestDataFile, getNewAuditsRecordSetById, ← first_eq] at run
  generalize (MultiPart.moveBeforeFirst req.schema (filteredFind req.schema
    (req.checkCondition first) (MultiPart.open req.schema table.parts table.indexTable)).2).2 = s₀
    at run rewound content₁
  have searched : s₀.Moves (s₀.findById req.schema req.schema.idField first).2 :=
    rewound.2.moves_binarySearch req.schema req.schema.idField first
  have finds : (s₀.findById req.schema req.schema.idField first).1 = true ↔ _ :=
    (rewound.2.binarySearch_found (content₁.symm ▸ sorted) first).1
  have found : (s₀.findById req.schema req.schema.idField first).1 = true → ∃ i,
      (s₀.findById req.schema req.schema.idField first).2.AtRecord i ∧ _ :=
    (rewound.2.binarySearch_found (content₁.symm ▸ sorted) first).2
  rw [content₁, ← rows_eq] at finds found
  generalize s₀.findById req.schema req.schema.idField first = step at run searched finds found
  obtain ⟨hit, s₁⟩ := step
  have content₂ : s₁.content = table.content := searched.1.content.trans content₁
  cases hit with
  | true =>
    obtain ⟨i, here, r, read, same⟩ := found rfl
    obtain ⟨lt, at_⟩ := List.getElem?_eq_some_iff.1 read
    refine loop s₁ i r searched.2 content₂ here read (Nat.le_of_eq same.symm) (fun a ha => ?_) run
    obtain ⟨j, hj, rfl⟩ := mem_take_iff_getElem.1 ha
    have := mono j i (by omega) lt (by omega)
    rwa [at_, GetAuditsRequest.auditId, same] at this
  | false =>
    obtain ⟨keeps, places⟩ := searched.2.filteredFind_places req.schema (content₂ ▸ filled)
      (req.checkCondition first)
    have content₃ := keeps.1.content.trans content₂
    rw [content₂, ← rows_eq] at places
    simp only [Bool.false_eq_true, if_false] at run
    generalize (filteredFind req.schema (req.checkCondition first) s₁).2 = s₂
      at run keeps places content₃
    have ended := keeps.2.moves_getIndexCount
    rcases places with ⟨i, r, here, read, pass, below⟩ | ⟨exhausted, none⟩
    · have current : s₂.content.stored[i]? = some s₂.data.buffer := here.buffer
      rw [content₃, ← rows_eq] at current
      obtain rfl : r = s₂.data.buffer := Option.some.inj (read.symm.trans current)
      rw [here.eof_eq] at run
      -- the first record that passes is above the id that was not found
      have le := (passes _).1 pass
      have ne : req.auditId s₂.data.buffer ≠ first := fun same => by
        cases finds.2 ⟨_, mem_of_getElem? read, same⟩
      rw [getIndexCount_buffer, if_neg (by simp; omega)] at run
      exact loop _ i _ ended.2 content₃ here.eof_at read le (fun a ha => short (below a ha)) run
    · generalize s₂.eof = step at run exhausted
      obtain ⟨atEnd, s₃⟩ := step
      obtain rfl : atEnd = true := exhausted
      obtain rfl := Option.some.inj run
      refine Writes.nothing order fun complete a ha _ le => ?_
      have := short (none a ha)
      rw [first_eq, fromId, complete, if_neg Bool.false_ne_true] at this
      omega

end spec

end GetAuditsRequest

end CimArm.GetAudits
