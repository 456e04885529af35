import CimArm.Db.Retention
import Mathlib.Data.List.Flatten
import CimArm.Lib.Trace
import CimArm.Telesup.GetAuditsRequest

/-!
# Histories of requests for audits

Audits are stored and both kinds of requests made in any order; a request may be cut, and
may fail while it writes or sends.  As long as a complete request that starts behind the
last alarm comes back to it and does not find an alarm there (`Meets`), no audit is sent
twice, neither number decreases, and none that is retained is left out (`transfers_audits`).

An alarm that is the last record a request came to is sent again by the next complete
request, since only the number to start from is incremented (`transfers_audits_twice`).
-/

namespace CimArm.GetAudits

open MultiPart GetAuditsRequest List

variable {R : Type}

/-! ## Histories -/

/-- A file that was sent. -/
structure SentFile (R : Type) : Type where
  transferOnlyCritical : Bool
  records : List R

/-- The table and all that was written to it, the numbers stored for the supervision and
the files that were sent. -/
structure Telesup (R : Type) : Type where
  table : MultiPart R
  written : List R
  lastTelesupAuditId : Nat
  lastTelesupAlarmId : Nat
  sentFiles : List (SentFile R)

/-- An audit is stored, or a request is made that may fail on a record or while it sends. -/
inductive Op (R : Type) : Type
  | store (r : R)
  | request (transferOnlyCritical : Bool) (writes : Nat → Bool) (sends : Bool)

/-- `executeRequest`: the numbers are stored when the file is generated and sent. -/
def executeRequest (req : GetAuditsRequest R) (transferOnlyCritical : Bool)
    (writes : Nat → Bool) (sends : Bool) (t : Telesup R) : Telesup R :=
  match req.generateRequestDataFile t.table transferOnlyCritical writes t.lastTelesupAuditId
    t.lastTelesupAlarmId with
  | none => t
  | some file =>
    if sends then
      { t with
        sentFiles := t.sentFiles ++ [⟨transferOnlyCritical, file.records⟩]
        lastTelesupAuditId := file.nextLastAuditId
        lastTelesupAlarmId := file.nextLastAlarmId }
    else t

def step (req : GetAuditsRequest R) : Op R → Telesup R → Telesup R
  | .store r, t =>
    { t with
      table := (t.table.store req.schema r).2
      written := t.written ++ [t.table.content.newRecord req.schema r] }
  | .request only writes sends, t => executeRequest req only writes sends t

/-- The ids increase, and a request meets its condition. -/
def Ok (req : GetAuditsRequest R) (t : Telesup R) : Op R → Prop
  | .store r => ∀ a ∈ t.written,
      req.auditId a < req.auditId (t.table.content.newRecord req.schema r)
  | .request only _ _ => req.Meets t.table.content.stored only t.lastTelesupAuditId
      t.lastTelesupAlarmId

/-- A record is in exactly one of the files. -/
def SentOnce (files : List (SentFile R)) (r : R) : Prop :=
  ∃ before file after, files = before ++ file :: after ∧ r ∈ file.records ∧
    ∀ other ∈ before ++ after, r ∉ other.records

/-- What the files hold. -/
def sent (files : List (SentFile R)) : List R := files.flatMap SentFile.records

def complete (files : List (SentFile R)) : List (SentFile R) :=
  files.filter fun file => !file.transferOnlyCritical

/-- No audit is sent twice; the alarms up to the last alarm are sent once, and the other
audits up to the last audit once in a complete file and in no other. -/
structure Good (req : GetAuditsRequest R) (last₀ : Nat) (t : Telesup R) : Prop where
  nodup : ((sent t.sentFiles).map req.auditId).Nodup
  written : ∀ r ∈ sent t.sentFiles, r ∈ t.written
  alarms : ∀ r ∈ t.table.content.stored, req.isCriticalAudit r = true → last₀ < req.auditId r →
    req.auditId r ≤ t.lastTelesupAlarmId → SentOnce t.sentFiles r
  audits : ∀ r ∈ t.table.content.stored, req.isAudit r = true → last₀ < req.auditId r →
    req.auditId r ≤ t.lastTelesupAuditId → SentOnce (complete t.sentFiles) r
  only_alarms : ∀ file ∈ t.sentFiles, file.transferOnlyCritical = true →
    ∀ r ∈ file.records, req.isCriticalAudit r = true

/-- Neither number decreases, what was sent stays, and a complete request that was sent
leaves no audit between the two numbers. -/
structure Progress (req : GetAuditsRequest R) (t : Telesup R) (op : Op R) : Prop where
  audit_le : t.lastTelesupAuditId ≤ (step req op t).lastTelesupAuditId
  alarm_le : t.lastTelesupAlarmId ≤ (step req op t).lastTelesupAlarmId
  stays : t.sentFiles <+: (step req op t).sentFiles
  passed : ∀ writes, op = .request false writes true →
    req.generateRequestDataFile t.table false writes t.lastTelesupAuditId
      t.lastTelesupAlarmId ≠ none →
    ∀ r ∈ (step req op t).table.content.stored, req.isAudit r = true →
      req.auditId r ≤ (step req op t).lastTelesupAlarmId →
      req.auditId r ≤ (step req op t).lastTelesupAuditId

/-! ## What every step keeps -/

section run

variable {req : GetAuditsRequest R} {last₀ : Nat} {t : Telesup R}

/-- The ledger of the alarms and that of the other audits. -/
def Telesup.ledger (t : Telesup R) (wanted : R → Bool) (mark : Nat) : Watermark.Ledger R :=
  ⟨t.written, t.table.content.stored, mark, (sent t.sentFiles).filter wanted⟩

/-- The invariant of a history. -/
structure Inv (req : GetAuditsRequest R) (last₀ : Nat) (t : Telesup R) : Prop where
  sync : t.table.Synced
  shaped : t.table.content.Shaped req.schema
  alarms : Watermark.Kept req.auditId (fun _ => True) req.isCriticalAudit last₀
    (t.ledger req.isCriticalAudit t.lastTelesupAlarmId)
  audits : Watermark.Kept req.auditId (fun _ => True) req.isAudit last₀
    (t.ledger req.isAudit t.lastTelesupAuditId)
  order : t.lastTelesupAuditId ≤ t.lastTelesupAlarmId
  reach : t.lastTelesupAuditId = t.lastTelesupAlarmId ∨
    ∃ r ∈ t.table.content.stored, t.lastTelesupAlarmId ≤ req.auditId r
  only_alarms : ∀ file ∈ t.sentFiles, file.transferOnlyCritical = true →
    ∀ r ∈ file.records, req.isCriticalAudit r = true

theorem Inv.increasing (inv : Inv req last₀ t) :
    t.written.Pairwise fun a b => req.auditId a < req.auditId b :=
  inv.alarms.increasing.imp fun less => less trivial trivial

variable {r : R} {only : Bool}

theorem sentOnce_of_nodup {files : List (SentFile R)} (nodup : (sent files).Nodup)
    (hr : r ∈ sent files) : SentOnce files r := by
  obtain ⟨file, hfile, inside⟩ := mem_flatMap.1 hr
  obtain ⟨before, after, rfl⟩ := append_of_mem hfile
  refine ⟨before, file, after, rfl, inside, fun other hother twice => ?_⟩
  obtain ⟨-, -, apart⟩ := pairwise_append.1 (nodup_flatMap.1 nodup).2
  obtain ⟨first, -⟩ := pairwise_cons.1
    (pairwise_append.1 (nodup_flatMap.1 nodup).2).2.1
  rcases mem_append.1 hother with earlier | later
  · exact apart other earlier file mem_cons_self twice inside
  · exact first other later inside twice

theorem mem_sent {files : List (SentFile R)} (wanted : R → Bool) (want : wanted r = true) :
    r ∈ (sent files).filter wanted ↔ r ∈ sent files := by
  rw [mem_filter, and_iff_left want]

theorem Inv.nodup (inv : Inv req last₀ t) : ((sent t.sentFiles).map req.auditId).Nodup := by
  have parts := (filter_append_perm req.isCriticalAudit (sent t.sentFiles)).map req.auditId
  rw [← parts.nodup_iff, map_append, nodup_append]
  refine ⟨inv.alarms.nodup, inv.audits.nodup, ?_⟩
  intro i hi j hj same
  obtain ⟨a, ha, rfl⟩ := mem_map.1 hi
  obtain ⟨b, hb, rfl⟩ := mem_map.1 hj
  -- ids tell the records written apart
  have ids : (t.written.map req.auditId).Nodup :=
    pairwise_map.2 (inv.increasing.imp Nat.ne_of_lt)
  obtain rfl := inj_on_of_nodup_map ids (inv.alarms.sent_from a ha).1
    (inv.audits.sent_from b hb).1 same
  have alarm := (inv.alarms.sent_from a ha).2.1
  have other := req.isAudit_iff.1 (inv.audits.sent_from a hb).2.1
  rw [alarm] at other
  cases other

theorem Inv.good (inv : Inv req last₀ t) : Good req last₀ t where
  nodup := inv.nodup
  written := by
    intro r hr
    cases critical : req.isCriticalAudit r with
    | true => exact (inv.alarms.sent_from r ((mem_sent _ critical).2 hr)).1
    | false =>
      have noAlarm := req.isAudit_iff.2 critical
      exact (inv.audits.sent_from r ((mem_sent _ noAlarm).2 hr)).1
  alarms := fun r hr critical low high =>
    sentOnce_of_nodup inv.nodup.of_map
      ((mem_sent _ critical).1 (inv.alarms.complete r hr critical low high))
  audits := by
    intro r hr noAlarm low high
    have inside := (mem_sent _ noAlarm).1 (inv.audits.complete r hr noAlarm low high)
    have sub : (sent (complete t.sentFiles)).Sublist (sent t.sentFiles) :=
      List.Sublist.flatMap filter_sublist _
    refine sentOnce_of_nodup (inv.nodup.of_map.sublist sub) ?_
    obtain ⟨file, hfile, there⟩ := mem_flatMap.1 inside
    refine mem_flatMap.2 ⟨file, mem_filter.2 ⟨hfile, ?_⟩, there⟩
    -- a file of alarms does not have it
    cases only : file.transferOnlyCritical with
    | false => rfl
    | true =>
      have alarm := inv.only_alarms file hfile only r there
      rw [req.isAudit_iff.1 noAlarm] at alarm
      cases alarm
  only_alarms := inv.only_alarms

theorem Inv.store (two_le : 2 ≤ req.schema.maxFiles) (inv : Inv req last₀ t)
    (grows : ∀ a ∈ t.written, req.auditId a < req.auditId (t.table.content.newRecord req.schema r))
    : Inv req last₀ (step req (.store r) t) := by
  obtain ⟨sync, content, -, -⟩ := store_content req.schema inv.sync
    (filled_of_shaped inv.shaped) r
  obtain ⟨x, x_eq⟩ : ∃ x, x = t.table.content.newRecord req.schema r := ⟨_, rfl⟩
  have suffix : (t.table.store req.schema r).2.content.stored <:+
      t.table.content.stored ++ [x] := by
    rw [content, x_eq]
    exact Content.stored_store_suffix two_le inv.shaped _ r
  rw [← x_eq] at grows
  have stepped : step req (.store r) t = { t with
      table := (t.table.store req.schema r).2, written := t.written ++ [x] } := by rw [x_eq]; rfl
  rw [stepped]
  refine ⟨sync, ?_, inv.alarms.write (fun _ _ => trivial) (fun a ha _ _ => grows a ha) suffix,
    inv.audits.write (fun _ _ => trivial) (fun a ha _ _ => grows a ha) suffix, inv.order, ?_,
    inv.only_alarms⟩
  · show (t.table.store req.schema r).2.content.Shaped req.schema
    rw [content]
    exact inv.shaped.store two_le _ r
  · refine inv.reach.imp_right ?_
    rintro ⟨a, ha, le⟩
    -- the new record is retained, with a greater id
    have kept : x ∈ (t.table.store req.schema r).2.content.stored := by
      rw [content, Content.store_stored two_le inv.shaped, x_eq]
      exact mem_append_right _ (mem_singleton_self _)
    exact ⟨x, kept, Nat.le_trans le (Nat.le_of_lt (grows a (inv.alarms.suffix.subset ha)))⟩

theorem step_none {writes : Nat → Bool} (sends : Bool)
    (generated : req.generateRequestDataFile t.table only writes t.lastTelesupAuditId
      t.lastTelesupAlarmId = none) :
    step req (.request only writes sends) t = t := by
  show executeRequest req only writes sends t = t
  unfold executeRequest
  rw [generated]

theorem step_some {writes : Nat → Bool} (sends : Bool) {file : AuditFile R}
    (generated : req.generateRequestDataFile t.table only writes t.lastTelesupAuditId
      t.lastTelesupAlarmId = some file) :
    step req (.request only writes sends) t =
    if sends then
      { t with
        sentFiles := t.sentFiles ++ [⟨only, file.records⟩]
        lastTelesupAuditId := file.nextLastAuditId
        lastTelesupAlarmId := file.nextLastAlarmId }
    else t := by
  show executeRequest req only writes sends t = _
  unfold executeRequest
  rw [generated]

theorem Inv.request (inv : Inv req last₀ t)
    (meets : req.Meets t.table.content.stored only t.lastTelesupAuditId t.lastTelesupAlarmId)
    (writes : Nat → Bool) (sends : Bool) : Inv req last₀ (step req (.request only writes sends) t) ∧
      Progress req t (.request only writes sends) := by
  have unchanged (same : step req (.request only writes sends) t = t) (fails : sends = true →
      req.generateRequestDataFile t.table only writes t.lastTelesupAuditId
        t.lastTelesupAlarmId = none) :
      Inv req last₀ (step req (.request only writes sends) t) ∧
        Progress req t (.request only writes sends) := by
    refine ⟨same.symm ▸ inv, Nat.le_of_eq (congrArg _ same.symm),
      Nat.le_of_eq (congrArg _ same.symm), same.symm ▸ prefix_rfl, ?_⟩
    rintro writes' op fine
    cases op
    exact absurd (fails rfl) fine
  cases generated : req.generateRequestDataFile t.table only writes t.lastTelesupAuditId
      t.lastTelesupAlarmId with
  | none => exact unchanged (step_none sends generated) fun _ => generated
  | some file =>
    cases sends with
    | false => exact unchanged (step_some false generated) fun sent => nomatch sent
    | true =>
      have wrote := generateRequestDataFile_spec inv.shaped
        (inv.increasing.sublist inv.alarms.suffix.sublist) meets inv.order inv.reach generated
      have stepped := step_some true generated
      rw [if_pos rfl] at stepped
      have flat (wanted : R → Bool) : (sent (t.sentFiles ++ [⟨only, file.records⟩])).filter wanted =
          (sent t.sentFiles).filter wanted ++ file.records.filter wanted := by
        rw [sent, flatMap_append, filter_append, flatMap_singleton]
        rfl
      have counted {mark mark' : Nat}
          (reached : mark' = mark ∨ ∃ r ∈ t.table.content.stored, req.auditId r = mark') :
          mark' = mark ∨ ∃ r ∈ t.table.content.stored, True ∧ req.auditId r = mark' := by
        simpa only [true_and] using reached
      have alarms := inv.alarms.take (fun _ _ => trivial) wrote.alarm_le
        (counted wrote.alarm_reached)
      have audits := inv.audits.take (fun _ _ => trivial) wrote.audit_le
        (counted wrote.audit_reached)
      constructor
      · rw [stepped]
        refine ⟨inv.sync, inv.shaped, ?_, ?_, wrote.order, ?_, ?_⟩
        · rw [Telesup.ledger, flat, wrote.alarms]
          exact alarms
        · rw [Telesup.ledger, flat, wrote.audits]
          exact audits
        · show file.nextLastAuditId = file.nextLastAlarmId ∨
            ∃ r ∈ t.table.content.stored, file.nextLastAlarmId ≤ req.auditId r
          rcases wrote.alarm_reached with same | ⟨r, hr, last⟩
          · rw [same]
            refine inv.reach.imp_left fun equal => ?_
            have le := wrote.audit_le
            have ge := wrote.order
            omega
          · exact .inr ⟨r, hr, Nat.le_of_eq last.symm⟩
        · intro sentFile hfile alarmsOnly
          rcases mem_append.1 hfile with before | now
          · exact inv.only_alarms sentFile before alarmsOnly
          · obtain rfl := mem_singleton.1 now
            exact wrote.only_alarms alarmsOnly
      · refine ⟨?_, ?_, ?_, ?_⟩ <;> rw [stepped]
        · exact wrote.audit_le
        · exact wrote.alarm_le
        · exact prefix_append _ _
        · rintro writes' op -
          cases op
          exact wrote.passed rfl

end run

/-! ## The transfer of audits -/

/-- In every run from a table with ids that increase, whose steps are as they should be, no
audit is repeated or left out and no number decreases. -/
theorem transfers_audits (req : GetAuditsRequest R) (two_le : 2 ≤ req.schema.maxFiles)
    (table : MultiPart R) (written : List R) (last₀ : Nat) (ops : List (Op R))
    (sync : table.Synced) (shaped : table.content.Shaped req.schema)
    (suffix : table.content.stored <:+ written)
    (increasing : written.Pairwise fun a b => req.auditId a < req.auditId b)
    (ok : Trace.Always (step req) (Ok req) ops ⟨table, written, last₀, last₀, []⟩) :
    Trace.Always (step req) (fun t op => Good req last₀ t ∧ Progress req t op) ops
        ⟨table, written, last₀, last₀, []⟩ ∧
      Good req last₀ (Trace.after (step req) ops ⟨table, written, last₀, last₀, []⟩) := by
  have start : Inv req last₀ ⟨table, written, last₀, last₀, []⟩ :=
    ⟨sync, shaped, .start last₀ (increasing.imp fun less _ _ => less) suffix,
      .start last₀ (increasing.imp fun less _ _ => less) suffix, Nat.le_refl _, .inl rfl,
      fun _ none => nomatch none⟩
  have kept : ∀ {t : Telesup R} {op : Op R}, Inv req last₀ t → Ok req t op →
      Inv req last₀ (step req op t) ∧ Good req last₀ t ∧ Progress req t op := by
    intro t op inv ok
    cases op with
    | store r =>
      refine ⟨inv.store two_le ok, inv.good, Nat.le_refl _, Nat.le_refl _, prefix_rfl, ?_⟩
      rintro writes op
      cases op
    | request only writes sends =>
      obtain ⟨inv', progress⟩ := inv.request ok writes sends
      exact ⟨inv', inv.good, progress⟩
  refine ⟨Trace.Always.of_invariant (Inv req last₀) kept start ok, Inv.good ?_⟩
  exact Trace.Always.after_of_invariant (Inv req last₀) (fun inv ok => (kept inv ok).1) start ok

/-- What is looked at of a record of `audits`. -/
structure AuditRecord : Type where
  auditId : Nat
  eventId : Nat
  date : Nat
  deriving DecidableEq

/-- `audits`, with `AUDIT_ID` as id and as `AUTOINC` field, as it is shipped. -/
def audits : MultiPartSchema AuditRecord where
  blank := ⟨0, 0, 0⟩
  autoIncField := some ((·.auditId), fun n r => { r with auditId := n })
  idField := ⟨4, (·.auditId)⟩
  id_kept _ := .inl rfl
  dateField := some (·.date)
  maxRecordCount := some 300
  maxFiles := 50
  id_read := by
    rintro read write auto
    cases auto
    rfl
  id_write := by
    rintro read write auto
    cases auto
    exact fun _ _ _ => rfl
  date_write := by
    rintro read write auto date isDate
    cases auto
    cases isDate
    exact fun _ _ => rfl

/-- The request with the events from 100 on as critical ones. -/
def shipped : GetAuditsRequest AuditRecord := ⟨audits, fun r => decide (100 ≤ r.eventId), fun _ => 60⟩

/-- No audit stored or sent yet. -/
def fresh : Telesup AuditRecord := ⟨.created audits, [], 0, 0, []⟩

/-- An alarm and an audit are stored and sent by one request each. -/
theorem transfers_audits_one : Good shipped 0 (Trace.after (step shipped)
    [.store ⟨0, 100, 7⟩, .store ⟨0, 5, 8⟩, .request true (fun _ => true) true,
      .request false (fun _ => true) true] fresh) := by
  obtain ⟨sync, content⟩ := created_content audits
  have stored : (MultiPart.created audits).content.stored = [] := by
    rw [content]
    rfl
  refine (transfers_audits shipped (by decide) (.created audits) [] 0 _ sync (shaped_created _)
    (by rw [stored]) .nil ?_).2
  refine ⟨fun _ none => (nomatch none), ?_, ⟨by decide +kernel, by decide +kernel, nofun⟩,
    ⟨by decide +kernel, by decide +kernel, fun _ _ => ?_⟩, trivial⟩
  · unfold Ok
    decide +kernel
  · decide +kernel

/-- An alarm that a complete request came to last is sent again by the next one. -/
theorem transfers_audits_twice : ¬ Good shipped 0 (Trace.after (step shipped)
    [.store ⟨0, 100, 7⟩, .request false (fun _ => true) true,
      .request false (fun _ => true) true] fresh) := by
  intro good
  have nodup := good.nodup
  revert nodup
  decide +kernel

end CimArm.GetAudits
