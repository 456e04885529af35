import CimArm.Telesup.GetDataFileRequest

/-!
# Histories of requests by number

Records are stored and requests made in any order; a request may fail while it writes or
sends, and then nothing changes but what the other side has of the file.  As long as the
first record of a request tells what it is compared for (`Meets`), the numbers sent
increase, the last number transferred is the largest one sent, none that is retained is
left out, and a request that has something new sends some of it (`transfers`).

Numbers with gaps break it: without a record for the next number, and with a first record
that is older, a request sends nothing however much is new.  Of the cash closes the first
record may be a Z close: then old ones are sent again.
-/

namespace CimArm.GetDataFile

open MultiPart NumberedRequest List

variable {R : Type}

/-! ## The four requests search as they should -/

section lawful

theorem moveFirst_places (req : NumberedRequest R) {s : MultiPart R} (sync : s.Synced)
    (filled : s.content.Filled) :
    s.Keeps (s.moveFirst req.schema).2 ∧
      ((∃ i r, (s.moveFirst req.schema).2.AtRecord i ∧ s.content.stored[i]? = some r ∧
          s.content.stored.head? = some r ∧
          ∀ a ∈ s.content.stored.take i, req.wanted a = false) ∨
        (s.moveFirst req.schema).2.eof.1 = true ∧ s.content.stored.head? = none) := by
  have keeps := sync.moves_moveFirst req.schema
  obtain ⟨there, -⟩ := sync.moveFirst_atRecord req.schema filled
  refine ⟨keeps.keeps, ?_⟩
  by_cases rows : s.content.rows = []
  · refine .inr ⟨eof_of_empty (keeps.1.content ▸ rows), ?_⟩
    simp [Content.stored, Content.files, rows]
  · have here := (there rows).2
    have read : (s.moveFirst req.schema).2.content.stored[0]? = some _ := here.buffer
    rw [keeps.1.content] at read
    exact .inl ⟨0, _, here, read, List.head?_eq_getElem? ▸ read, fun a none => absurd none not_mem_nil⟩

theorem lawful_byId {req : NumberedRequest R} (formats : ∀ r, 0 < req.format r)
    (noAuto : req.schema.autoIncField = none) (two_le : 2 ≤ req.schema.maxFiles)
    (all : ∀ r, req.wanted r = true)
    (find : req.find = fun aValue rs => rs.findById req.schema req.schema.idField aValue)
    (moveFirst : req.moveFirst = fun rs => (rs.moveFirst req.schema).2) :
    req.Lawful List.head? where
  formats := formats
  noAuto := noAuto
  two_le := two_le
  find {s} sync inOrder n := by
    have sorted : s.content.Sorted req.schema := inOrder.shaped.sorted
      (inOrder.increasing.imp fun less => Nat.le_of_lt (less (all _) (all _)))
    obtain ⟨finds, found⟩ := sync.binarySearch_found sorted n
    rw [find]
    refine ⟨(sync.moves_binarySearch req.schema req.schema.idField n).keeps, ?_, fun hit => ?_⟩
    · rintro ⟨r, hr, -, number⟩
      exact finds.2 ⟨r, hr, number⟩
    · obtain ⟨i, here, r, hr, number⟩ := found hit
      exact ⟨i, r, here, hr, all r, number⟩
  moveFirst {s} sync inOrder := by
    rw [moveFirst]
    exact moveFirst_places req sync fun row hrow => (inOrder.shaped.describes row hrow).nonempty
  first_none := fun none r hr => by
    rw [List.head?_eq_none_iff.1 none] at hr
    cases hr

theorem lawful_getDepositsRequest {schema : MultiPartSchema R} {formatDeposit : R → Nat}
    (formats : ∀ r, 0 < formatDeposit r) (noAuto : schema.autoIncField = none)
    (two_le : 2 ≤ schema.maxFiles) :
    (getDepositsRequest schema formatDeposit).Lawful List.head? :=
  lawful_byId formats noAuto two_le (fun _ => rfl) rfl rfl

theorem lawful_getExtractionsRequest {schema : MultiPartSchema R} {formatExtraction : R → Nat}
    (formats : ∀ r, 0 < formatExtraction r) (noAuto : schema.autoIncField = none)
    (two_le : 2 ≤ schema.maxFiles) :
    (getExtractionsRequest schema formatExtraction).Lawful List.head? :=
  lawful_byId formats noAuto two_le (fun _ => rfl) rfl rfl

variable (table : ZCloseTable) (closeType : CloseType)

/-- The verdict of the search for a close by its number. -/
def closeVerdict (anId : Nat) (r : ZCloseRecord) : Option Bool :=
  if r.closeType = closeType then
    if r.number = anId then some true
    else if r.number < anId then some false
    else none
  else none

theorem firstDecided_closeVerdict (anId : Nat) (rows : List ZCloseRecord)
    (decreasing : rows.Pairwise fun a b =>
      a.closeType = closeType → b.closeType = closeType → b.number < a.number)
    (there : ∃ r ∈ rows, r.closeType = closeType ∧ r.number = anId) :
    (firstDecided (closeVerdict closeType anId) rows).isSome = true := by
  induction rows with
  | nil =>
    obtain ⟨r, none, -⟩ := there
    cases none
  | cons a rows ih =>
    obtain ⟨r, hr, kind, number⟩ := there
    obtain ⟨less, decreasing⟩ := pairwise_cons.1 decreasing
    rw [firstDecided, closeVerdict]
    by_cases same : a.closeType = closeType
    · rw [if_pos same]
      by_cases here : a.number = anId
      · rw [if_pos here]
        rfl
      · rw [if_neg here]
        have later : r ∈ rows := (mem_cons.1 hr).resolve_left fun eq =>
          here (eq ▸ number)
        have above := less r later same kind
        rw [if_neg (by omega)]
        exact ih decreasing ⟨r, later, kind, number⟩
    · rw [if_neg same]
      have later : r ∈ rows := (mem_cons.1 hr).resolve_left fun eq => same (eq ▸ kind)
      exact ih decreasing ⟨r, later, kind, number⟩

theorem find_findCloseById {req : NumberedRequest ZCloseRecord} (schema : req.schema = table.schema)
    (wanted : ∀ r, req.wanted r = true ↔ r.closeType = closeType) {s : MultiPart ZCloseRecord}
    (sync : s.Synced) (inOrder : req.InOrder s.content) (n : Nat) :
    s.Keeps (findCloseById table closeType n s).2 ∧
    ((∃ r ∈ s.content.stored, req.wanted r = true ∧ req.number r = n) →
      (findCloseById table closeType n s).1 = true) ∧
    ((findCloseById table closeType n s).1 = true → ∃ i r,
      (findCloseById table closeType n s).2.AtRecord i ∧
        s.content.stored[i]? = some r ∧ req.wanted r = true ∧ req.number r = n) := by
  have number (r : ZCloseRecord) : req.number r = r.number := by
    rw [NumberedRequest.number, schema]
    rfl
  have filled : s.content.Filled := fun row hrow =>
    (inOrder.shaped.describes row hrow).nonempty
  obtain ⟨found, keeps⟩ := sync.findLast_eq table.schema filled (closeVerdict closeType n)
  have stands := fun r => sync.findLast_at table.schema filled (closeVerdict closeType n) (r := r)
  refine ⟨keeps.keeps, ?_, fun hit => ?_⟩
  · rintro ⟨r, hr, want, same⟩
    show (s.findLast table.schema (closeVerdict closeType n)).1.isSome = true
    rw [found]
    refine firstDecided_closeVerdict closeType n _ ?_
      ⟨r, mem_reverse.2 hr, (wanted r).1 want, number r ▸ same⟩
    refine pairwise_reverse.2 (inOrder.increasing.imp fun less ha hb => ?_)
    have := less ((wanted _).2 hb) ((wanted _).2 ha)
    rwa [number, number] at this
  · obtain ⟨r, hr⟩ := Option.isSome_iff_exists.1 hit
    obtain ⟨i, here, read, verdict⟩ := stands r hr
    rw [closeVerdict] at verdict
    by_cases kind : r.closeType = closeType
    · rw [if_pos kind] at verdict
      by_cases same : r.number = n
      · exact ⟨i, r, here, read, (wanted r).2 kind, (number r).trans same⟩
      · rw [if_neg same] at verdict
        split_ifs at verdict
        cases verdict
    · rw [if_neg kind] at verdict
      cases verdict

theorem lawful_getXCloseRequest {formatXClose : ZCloseRecord → Nat}
    (formats : ∀ r, 0 < formatXClose r) :
    (getXCloseRequest table formatXClose).Lawful List.head? where
  formats := formats
  noAuto := rfl
  two_le := table.two_le
  find sync inOrder n := find_findCloseById table .cashClose rfl
    (fun _ => decide_eq_true_iff) sync inOrder n
  moveFirst sync inOrder := moveFirst_places (getXCloseRequest table formatXClose) sync
    fun row hrow => (inOrder.shaped.describes row hrow).nonempty
  first_none := fun none r hr => by
    rw [List.head?_eq_none_iff.1 none] at hr
    cases hr

theorem lawful_getZCloseRequest {formatZClose : ZCloseRecord → Nat}
    (formats : ∀ r, 0 < formatZClose r) :
    (getZCloseRequest table formatZClose).Lawful (List.find? ZCloseDAO.isZClose) where
  formats := formats
  noAuto := rfl
  two_le := table.two_le
  find sync inOrder n := find_findCloseById table .endOfDay rfl
    (fun _ => decide_eq_true_iff) sync inOrder n
  moveFirst {s} sync inOrder := by
    have filled : s.content.Filled := fun row hrow =>
      (inOrder.shaped.describes row hrow).nonempty
    have keeps := sync.moves_moveFirst table.schema
    have content := keeps.1.content
    obtain ⟨there, -⟩ := sync.moveFirst_atRecord table.schema filled
    have length : ∀ s : MultiPart ZCloseRecord, s.stored.length = s.content.stored.length :=
      fun _ => rfl
    obtain ⟨fuel, fuel_eq⟩ : ∃ fuel, fuel = (s.moveFirst table.schema).2.stored.length + 1 :=
      ⟨_, rfl⟩
    have moved : moveFirstZClose table s =
        (s.moveFirst table.schema).2.forwardUntil table.schema ZCloseDAO.isZClose fuel := by
      rw [fuel_eq]
      rfl
    show s.Keeps (moveFirstZClose table s) ∧ (_ ∨ (moveFirstZClose table s).eof.1 = true ∧ _)
    rw [moved]
    refine ⟨(keeps.trans (keeps.2.moves_forwardUntil table.schema _ _)).keeps, ?_⟩
    by_cases rows : s.content.rows = []
    · have exhausted : (s.moveFirst table.schema).2.eof.1 = true := eof_of_empty (content ▸ rows)
      refine .inr ⟨forwardUntil_eof _ _ exhausted, ?_⟩
      simp [Content.stored, Content.files, rows]
    · have here := (there rows).2
      have places := here.forwardUntil table.schema ZCloseDAO.isZClose fuel keeps.2
        (content ▸ filled) (by rw [fuel_eq, length]; omega)
      rw [content] at places
      refine places.imp ?_ ?_
      · rintro ⟨j, r, -, stands, read, isZ, before⟩
        obtain ⟨lt, at_⟩ := List.getElem?_eq_some_iff.1 read
        refine ⟨j, r, ?_, read, ?_, fun a ha => ?_⟩
        · show (moveFirstZClose table s).AtRecord j
          rw [moved]
          exact stands
        · refine List.find?_eq_some_iff_getElem.2 ⟨isZ, j, lt, at_, fun k hk => ?_⟩
          rw [before k _ (Nat.zero_le k) hk (List.getElem?_eq_getElem (Nat.lt_trans hk lt))]
          rfl
        · obtain ⟨k, hk, rfl⟩ := mem_take_iff_getElem.1 ha
          exact before k _ (Nat.zero_le k) (by omega) (List.getElem?_eq_getElem _)
      · rintro ⟨exhausted, none⟩
        refine ⟨exhausted, List.find?_eq_none.2 fun r hr => ?_⟩
        obtain ⟨k, hk⟩ := mem_iff_getElem?.1 hr
        exact Bool.not_eq_true _ ▸ none k r (Nat.zero_le k) hk
  first_none := fun none r hr => Bool.not_eq_true _ ▸ List.find?_eq_none.1 none r hr

end lawful

/-! ## Histories -/

/-- The table and all that was written to it, the number stored for the supervision and the
files that were sent. -/
structure Telesup (R : Type) : Type where
  table : MultiPart R
  written : List R
  lastNumber : Nat
  sentFiles : List (List R)

/-- A record is stored, or a request is made that may fail on a record or while it sends. -/
inductive Op (R : Type) : Type
  | store (r : R)
  | request (aTo : Int) (writes : Nat → Bool) (sends : Bool)

/-- `executeRequest`: the number is stored when the file is generated and sent. -/
def executeRequest (req : NumberedRequest R) (aTo : Int) (writes : Nat → Bool) (sends : Bool)
    (t : Telesup R) : Telesup R :=
  match req.generateRequestDataFile t.table writes aTo t.lastNumber with
  | none => t
  | some file =>
    if sends then
      { t with sentFiles := t.sentFiles ++ [file.records], lastNumber := file.last }
    else t

def step (req : NumberedRequest R) : Op R → Telesup R → Telesup R
  | .store r, t =>
    { t with table := (t.table.store req.schema r).2, written := t.written ++ [r] }
  | .request aTo writes sends, t => executeRequest req aTo writes sends t

/-- The numbers of a kind increase, and a request meets its condition. -/
def Ok (req : NumberedRequest R) (first : List R → Option R) (t : Telesup R) : Op R → Prop
  | .store r => ∀ a ∈ t.written, req.wanted a = true → req.wanted r = true →
      req.number a < req.number r
  | .request aTo _ _ => req.Meets first t.table.content.stored aTo t.lastNumber

/-- What was sent is sent once and in order, up to the number that is stored, and nothing
that is retained was left out. -/
structure Good (req : NumberedRequest R) (last₀ : Nat) (t : Telesup R) : Prop where
  increasing : (t.sentFiles.flatten.map req.number).Pairwise (· < ·)
  sent : ∀ r ∈ t.sentFiles.flatten, r ∈ t.written ∧ req.wanted r = true ∧
    req.number r ≤ t.lastNumber
  largest : t.lastNumber = (t.sentFiles.flatten.getLast?.map req.number).getD last₀
  complete : ∀ r ∈ t.table.content.stored, req.wanted r = true → last₀ < req.number r →
    req.number r ≤ t.lastNumber → r ∈ t.sentFiles.flatten

/-- The number stored does not decrease, and a request that fails nowhere sends something
when there is something new. -/
structure Progress (req : NumberedRequest R) (t : Telesup R) (op : Op R) : Prop where
  le : t.lastNumber ≤ (step req op t).lastNumber
  some_new : ∀ aTo writes, op = .request aTo writes true →
    req.generateRequestDataFile t.table writes aTo t.lastNumber ≠ none →
    (∃ r ∈ t.table.content.stored, req.wanted r = true ∧ t.lastNumber < req.number r ∧
      req.Within aTo r) →
    ∃ file ≠ [], (step req op t).sentFiles = t.sentFiles ++ [file]

/-- The transfer of a kind of records: in every run from a table that is in order, whose
steps are as they should be. -/
def Transfers (req : NumberedRequest R) (first : List R → Option R) : Prop :=
  ∀ (table : MultiPart R) (written : List R) (last₀ : Nat) (ops : List (Op R)),
    table.Synced → req.InOrder table.content → table.content.stored <:+ written →
    (written.Pairwise fun a b =>
      req.wanted a = true → req.wanted b = true → req.number a < req.number b) →
    Trace.Always (step req) (Ok req first) ops ⟨table, written, last₀, []⟩ →
    Trace.Always (step req) (fun t op => Good req last₀ t ∧ Progress req t op) ops
        ⟨table, written, last₀, []⟩ ∧
      Good req last₀ (Trace.after (step req) ops ⟨table, written, last₀, []⟩)

section run

variable {req : NumberedRequest R} {first : List R → Option R} {last₀ : Nat} {t : Telesup R}

/-- The ledger of a history. -/
def Telesup.ledger (t : Telesup R) : Watermark.Ledger R :=
  ⟨t.written, t.table.content.stored, t.lastNumber, t.sentFiles.flatten⟩

/-- The invariant of a history. -/
structure Inv (req : NumberedRequest R) (last₀ : Nat) (t : Telesup R) : Prop where
  sync : t.table.Synced
  inOrder : req.InOrder t.table.content
  kept : Watermark.Kept req.number (fun r => req.wanted r = true) req.wanted last₀ t.ledger
  largest : t.lastNumber = (t.sentFiles.flatten.getLast?.map req.number).getD last₀

theorem Inv.good (inv : Inv req last₀ t) : Good req last₀ t where
  increasing := pairwise_map.2 inv.kept.sent_increasing
  sent := fun r hr =>
    have made := inv.kept.sent_from r hr
    ⟨made.1, made.2.1, made.2.2.2⟩
  largest := inv.largest
  complete := inv.kept.complete

theorem Inv.store (lawful : req.Lawful first) (inv : Inv req last₀ t) {r : R}
    (grows : ∀ a ∈ t.written, req.wanted a = true → req.wanted r = true →
      req.number a < req.number r) : Inv req last₀ (step req (.store r) t) := by
  obtain ⟨sync, content, -, -⟩ := store_content req.schema inv.sync
    (filled_of_shaped inv.inOrder.shaped) r
  have suffix : (t.table.store req.schema r).2.content.stored <:+
      t.table.content.stored ++ [r] := by
    rw [content]
    exact Content.store_suffix lawful.two_le lawful.noAuto inv.inOrder.shaped _ r suffix_rfl
  have kept := inv.kept.write (fun _ want => want) grows suffix
  refine ⟨sync, ⟨?_, ?_⟩, kept, inv.largest⟩
  · show (t.table.store req.schema r).2.content.Shaped req.schema
    rw [content]
    exact inv.inOrder.shaped.store lawful.two_le _ r
  · exact kept.increasing.sublist kept.suffix.sublist

theorem Inv.request (lawful : req.Lawful first) (inv : Inv req last₀ t) {aTo : Int}
    (meets : req.Meets first t.table.content.stored aTo t.lastNumber) (writes : Nat → Bool)
    (sends : Bool) :
    Inv req last₀ (step req (.request aTo writes sends) t) ∧
      Progress req t (.request aTo writes sends) := by
  cases generated : req.generateRequestDataFile t.table writes aTo t.lastNumber with
  | none =>
    have same : step req (.request aTo writes sends) t = t := by
      rw [step, executeRequest, generated]
    refine ⟨same.symm ▸ inv, Nat.le_of_eq (congrArg _ same.symm), ?_⟩
    rintro aTo' writes' op fine
    cases op
    exact absurd generated fine
  | some file =>
    have writes_spec := generateRequestDataFile_spec lawful inv.inOrder meets generated
    cases sends with
    | false =>
      have same : step req (.request aTo writes false) t = t := by
        rw [step, executeRequest, generated]
        rfl
      refine ⟨same.symm ▸ inv, Nat.le_of_eq (congrArg _ same.symm), ?_⟩
      rintro aTo' writes' op
      cases op
    | true =>
      have sent : step req (.request aTo writes true) t =
          { t with sentFiles := t.sentFiles ++ [file.records], lastNumber := file.last } := by
        rw [step, executeRequest, generated]
        rfl
      rw [sent]
      have flat : (t.sentFiles ++ [file.records]).flatten =
          t.sentFiles.flatten ++ file.records := by simp
      refine ⟨⟨inv.sync, inv.inOrder, ?_, ?_⟩, ?_, ?_⟩
      · have kept := inv.kept.take (fun _ want => want) writes_spec.le writes_spec.reached
        rw [Telesup.ledger, flat, writes_spec.records]
        exact kept
      · rw [flat, writes_spec.last_eq, inv.largest, List.getLast?_append]
        cases file.records.getLast? <;> rfl
      · rw [sent]
        exact writes_spec.le
      · rintro aTo' writes' op - new
        cases op
        exact ⟨file.records, writes_spec.some_new new, by rw [sent]⟩

theorem transfers_of_lawful (lawful : req.Lawful first) : Transfers req first := by
  intro table written last₀ ops sync inOrder suffix increasing ok
  have start : Inv req last₀ ⟨table, written, last₀, []⟩ :=
    ⟨sync, inOrder, .start last₀ increasing suffix, rfl⟩
  have kept : ∀ {t : Telesup R} {op : Op R}, Inv req last₀ t → Ok req first t op →
      Inv req last₀ (step req op t) ∧ Good req last₀ t ∧ Progress req t op := by
    intro t op inv ok
    cases op with
    | store r =>
      refine ⟨inv.store lawful ok, inv.good, Nat.le_refl _, ?_⟩
      rintro aTo writes op
      cases op
    | request aTo writes sends =>
      obtain ⟨inv', progress⟩ := inv.request lawful ok writes sends
      exact ⟨inv', inv.good, progress⟩
  refine ⟨Trace.Always.of_invariant (Inv req last₀) kept start ok, Inv.good ?_⟩
  exact Trace.Always.after_of_invariant (Inv req last₀) (fun inv ok => (kept inv ok).1) start ok

end run

/-- The four kinds of records that are sent by number. -/
theorem transfers {S : Type} {deposits : MultiPartSchema R} {extractions : MultiPartSchema S}
    (noAuto : deposits.autoIncField = none ∧ extractions.autoIncField = none)
    (two_le : 2 ≤ deposits.maxFiles ∧ 2 ≤ extractions.maxFiles)
    {formatDeposit : R → Nat} {formatExtraction : S → Nat}
    {formatXClose formatZClose : ZCloseRecord → Nat}
    (formats : (∀ r, 0 < formatDeposit r) ∧ (∀ r, 0 < formatExtraction r) ∧
      (∀ r, 0 < formatXClose r) ∧ ∀ r, 0 < formatZClose r) (table : ZCloseTable) :
    Transfers (getDepositsRequest deposits formatDeposit) List.head? ∧
    Transfers (getExtractionsRequest extractions formatExtraction) List.head? ∧
    Transfers (getXCloseRequest table formatXClose) List.head? ∧
    Transfers (getZCloseRequest table formatZClose) (List.find? ZCloseDAO.isZClose) :=
  ⟨transfers_of_lawful (lawful_getDepositsRequest formats.1 noAuto.1 two_le.1),
    transfers_of_lawful (lawful_getExtractionsRequest formats.2.1 noAuto.2 two_le.2),
    transfers_of_lawful (lawful_getXCloseRequest table formats.2.2.1),
    transfers_of_lawful (lawful_getZCloseRequest table formats.2.2.2)⟩

/-- A close with a number. -/
def close (closeType : CloseType) (number : Nat) : ZCloseRecord :=
  { ZCloseRecord.blank with number := number, closeType := closeType }

/-- Nothing stored or sent yet. -/
def fresh : Telesup ZCloseRecord := ⟨.created ZCloseTable.shipped.schema, [], 0, []⟩

/-- A Z close is stored and sent. -/
theorem transfers_one : Good (getZCloseRequest .shipped fun _ => 100) 0
    (Trace.after (step (getZCloseRequest .shipped fun _ => 100))
      [.store (close .endOfDay 1), .request 0 (fun _ => true) true] fresh) := by
  obtain ⟨sync, content⟩ := created_content ZCloseTable.shipped.schema
  have stored : (MultiPart.created ZCloseTable.shipped.schema).content.stored = [] := by
    rw [content]
    rfl
  have inOrder : (getZCloseRequest .shipped fun _ => 100).InOrder
      (MultiPart.created ZCloseTable.shipped.schema).content :=
    ⟨shaped_created _, by rw [stored]; exact .nil⟩
  refine (((@transfers _ _ DepositTables.shipped.headers DepositTables.shipped.headers ⟨rfl, rfl⟩
    ⟨by decide, by decide⟩ (fun _ => 103) (fun _ => 200) (fun _ => 100) (fun _ => 100)
    ⟨fun _ => by decide, fun _ => by decide, fun _ => by decide, fun _ => by decide⟩
    .shipped).2.2.2) _ _ _ _ sync inOrder (by rw [stored]) .nil ?_).2
  refine ⟨fun a none => (nomatch none), ⟨by decide, ?_, .inl ?_⟩, trivial⟩
  · decide +kernel
  · decide +kernel

/-- The first record is a Z close with a greater number: the cash close is sent again. -/
theorem transfers_twice : ¬ Good (getXCloseRequest .shipped fun _ => 100) 0
    (Trace.after (step (getXCloseRequest .shipped fun _ => 100))
      [.store (close .endOfDay 9), .store (close .cashClose 1), .request 0 (fun _ => true) true,
        .request 0 (fun _ => true) true] fresh) := by
  intro good
  have increasing := good.increasing
  revert increasing
  decide +kernel

end CimArm.GetDataFile
