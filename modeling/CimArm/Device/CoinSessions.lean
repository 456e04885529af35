import CimArm.Device.CoinCounting

/-!
# The sessions of a coin counter

A session is lost when it is stopped before a status has shown the motor running.  A reply that
comes late is taken for the one to the command just written.  And the reply to a start discards
a stop that was asked for meanwhile.

* `sessions_told`: in the runs where none of this happens each session is told once, with its
  counts, before they are cleared, and a request is only discarded by the reply to its command.
* `stop_discarded`: a stop that is discarded.
-/

namespace CimArm.CoinCounting

open Cdm3000 List

variable (coins : CoinSet)

/-! ## The invariant -/

/-- A session that ended and was not told is still in the device, and the loop will ask for it. -/
structure Sessions (s : System) : Prop where
  told : s.ended.map (view coins) = notices s.cdm ++
    if s.device.motor = false ∧ s.cdm.coinsAcceptedNotifMissing = true then
      [view coins s.device.count] else []
  running : s.device.motor = true → s.cdm.clearPending = false ∧
    (s.cdm.motorRunning ≠ 0 ∧ s.cdm.coinsAcceptedNotifMissing = true ∨
      s.cdm.motorRunning = 0 ∧ s.cdm.coinsAcceptedNotifMissing = false ∧
        s.cdm.pendingStatus ≠ .STOP_PENDING)
  starting : s.device.motor = false → s.cdm.pendingStatus = .START_PENDING →
    s.cdm.motorRunning = 0 ∧ (s.cdm.clearPending = false →
      s.device.count = .zero ∧ s.cdm.coinsAcceptedNotifMissing = false)

structure Inv (s : System) : Prop extends Sessions coins s where
  awaited : ∀ sent ∈ s.sent, Awaited coins s sent.1 sent.2

section

variable {coins} {s : System}

variable {cdm : Cdm3000Data}

theorem Sessions.of_same (sessions : Sessions coins s) (same : Same s.cdm cdm) :
    Sessions coins { s with cdm } where
  told := by
    dsimp only
    rw [same.notices, same.missing]
    exact sessions.told
  running := by
    dsimp only
    rw [same.clearPending, same.motorRunning, same.missing, same.pendingStatus]
    exact sessions.running
  starting := by
    dsimp only
    rw [same.clearPending, same.motorRunning, same.missing, same.pendingStatus]
    exact sessions.starting

theorem Sessions.status (sessions : Sessions coins s) (shown : Shown s.cdm s.device.motor cdm) :
    Sessions coins { s with cdm } where
  told := by
    have missing : (s.device.motor = false ∧ cdm.coinsAcceptedNotifMissing = true) ↔
        s.device.motor = false ∧ s.cdm.coinsAcceptedNotifMissing = true := by
      rw [shown.missing]
      constructor
      · rintro ⟨stopped, missing | ⟨running, _⟩⟩
        · exact ⟨stopped, missing⟩
        · exact absurd (stopped.symm.trans running) (by decide)
      · rintro ⟨stopped, missing⟩
        exact ⟨stopped, .inl missing⟩
    dsimp only
    rw [shown.notices, if_congr missing rfl rfl]
    exact sessions.told
  running := by
    intro running
    obtain ⟨cleared, seen⟩ := sessions.running running
    refine ⟨shown.clearPending.trans cleared, .inl ⟨?_, shown.missing.2 ?_⟩⟩
    · rw [shown.motorRunning, if_pos running]
      decide
    · rcases seen with ⟨_, missing⟩ | ⟨unseen, _⟩
      · exact .inl missing
      · exact .inr ⟨running, by rw [unseen]; decide⟩
  starting := by
    intro stopped starting
    obtain ⟨_, clear⟩ := sessions.starting stopped (shown.pendingStatus.symm.trans starting)
    have off : s.device.motor = false := stopped
    refine ⟨by rw [shown.motorRunning, off]; rfl, fun cleared => ?_⟩
    obtain ⟨zero, missing⟩ := clear (shown.clearPending.symm.trans cleared)
    refine ⟨zero, Bool.eq_false_iff.2 fun here => ?_⟩
    rcases shown.missing.1 here with before | ⟨running, _⟩
    · exact absurd (missing.symm.trans before) (by decide)
    · exact absurd (off.symm.trans running) (by decide)

theorem Sessions.outcome (sessions : Sessions coins s) {cmd : UInt8} {frame : List UInt8}
    {inTime : Prop} {cdm : Cdm3000Data} (awaited : Awaited coins s cmd frame)
    (outcome : Outcome coins s cmd inTime cdm) : Sessions coins { s with cdm } := by
  cases outcome with
  | nothing _ same => exact sessions.of_same same
  | status _ shown => exact sessions.status shown
  | cleared asked same =>
    obtain ⟨stopped, zero, missing⟩ := awaited.cleared asked
    have next : Sessions coins { s with cdm := { s.cdm with clearPending := false } } :=
      { told := sessions.told
        running := fun running => absurd (stopped.symm.trans running) (by decide)
        starting := fun off starting =>
          ⟨(sessions.starting off starting).1, fun _ => ⟨zero, missing⟩⟩ }
    exact next.of_same same
  | acknowledged asked _ same =>
    have next : Sessions coins { s with cdm := { s.cdm with pendingStatus := .NO_ACTION } } :=
      { told := sessions.told
        running := fun running => ⟨(sessions.running running).1,
          (sessions.running running).2.imp_right fun unseen => ⟨unseen.1, unseen.2.1, by simp⟩⟩
        starting := fun _ starting => absurd starting (by simp) }
    exact next.of_same same
  | counted asked same =>
    obtain ⟨stopped, missing, _⟩ := awaited.counts asked
    have told := sessions.told
    rw [if_pos ⟨stopped, missing⟩] at told
    have next : Sessions coins { s with
        cdm := { s.cdm.tell (.coinsAccepted (view coins s.device.count).1
          (view coins s.device.count).2) with coinsAcceptedNotifMissing := false } } := by
      refine ⟨?_, fun running => absurd (stopped.symm.trans running) (by decide), ?_⟩
      · dsimp only
        rw [if_neg fun both => absurd both.2 (by decide), told, append_nil]
        exact (notices_tell s.cdm (.coinsAccepted (view coins s.device.count).1
          (view coins s.device.count).2)).symm
      · intro off starting
        obtain ⟨shown, clear⟩ := sessions.starting off starting
        exact ⟨shown, fun cleared => ⟨(clear cleared).1, rfl⟩⟩
    exact next.of_same same

/-! ## Writing a command -/

theorem Sessions.command_cases (sessions : Sessions coins s) :
    (command s.cdm).1 = 0x08 ∧ s.device.motor = false ∧
      s.cdm.coinsAcceptedNotifMissing = true ∧ s.cdm.motorRunning = 0 ∨
    (command s.cdm).1 = 0x01 ∧ s.device.motor = false ∧
      s.cdm.coinsAcceptedNotifMissing = false ∨
    Free s.cdm (command s.cdm).1 := by
  rcases CoinCounting.command_cases s.cdm with ⟨cmd, missing, shown⟩ |
    ⟨cmd, missing, clear, shown⟩ | free
  · refine .inl ⟨cmd, Bool.eq_false_iff.2 fun running => ?_, missing, shown⟩
    rcases (sessions.running running).2 with ⟨seen, _⟩ | ⟨_, told, _⟩
    · exact seen shown
    · exact absurd (told.symm.trans missing) (by decide)
  · refine .inr (.inl ⟨cmd, Bool.eq_false_iff.2 fun running => ?_, missing⟩)
    exact absurd ((sessions.running running).1.symm.trans clear) (by decide)
  · exact .inr (.inr free)

theorem step_poll (none : s.sent = none) :
    let cmd := (command s.cdm).1
    let device := s.device.execute cmd
    step coins .poll s =
      { cdm := afterWrite s.cdm
        device := device
        sent := some (cmd, cdmCommWrite s.cdm.devId (device.reply coins cmd).1
          (device.reply coins cmd).2)
        ended := if cmd = 0x05 ∧ s.device.motor then s.ended ++ [s.device.count] else s.ended
        written := s.written || cmd = requestCommand s.cdm.pendingStatus } := by
  intro cmd device
  rw [step, if_pos none]
  rfl

theorem requestCommand_injective : Function.Injective requestCommand := by
  intro a b same
  cases a <;> cases b <;> first | rfl | exact absurd same (by decide)

theorem pending_of_command {request : PendingStatus}
    (cmd : (command cdm).1 = requestCommand request) : cdm.pendingStatus = request := by
  have others : requestCommand request ≠ 0x08 ∧ requestCommand request ≠ 0x01 ∧
      requestCommand request ≠ 0x07 := by
    cases request <;> decide
  rcases CoinCounting.command_cases cdm with ⟨other, _⟩ | ⟨other, _⟩ | free
  · exact absurd (cmd.symm.trans other) others.1
  · exact absurd (cmd.symm.trans other) others.2.1
  · rcases free.which with ⟨reset, _⟩ | ⟨own, _⟩
    · exact absurd (cmd.symm.trans reset) others.2.2
    · exact requestCommand_injective (own.symm.trans cmd)

theorem Free.other {cmd : UInt8} (free : Free cdm cmd) : cmd ≠ 0x01 ∧ cmd ≠ 0x08 := by
  rcases free.which with ⟨reset, _⟩ | ⟨request, _⟩
  · rw [reset]
    decide
  · rw [request]
    cases cdm.pendingStatus <;> decide

theorem Sessions.started (sessions : Sessions coins s) (cmd : (command s.cdm).1 = 0x04)
    (stopped : s.device.motor = false) : s.cdm.motorRunning = 0 ∧ s.cdm.clearPending = false ∧
      s.cdm.coinsAcceptedNotifMissing = false ∧ s.device.count = .zero := by
  have starting : s.cdm.pendingStatus = .START_PENDING := pending_of_command cmd
  obtain ⟨shown, clear⟩ := sessions.starting stopped starting
  rcases sessions.command_cases with ⟨other, _⟩ | ⟨other, _⟩ | free
  · exact absurd (cmd.symm.trans other) (by decide)
  · exact absurd (cmd.symm.trans other) (by decide)
  · obtain ⟨zero, missing⟩ := clear (free.cleared shown)
    exact ⟨shown, free.cleared shown, missing, zero⟩

theorem Sessions.executed (sessions : Sessions coins s) :
    Sessions coins { s with
      device := s.device.execute (command s.cdm).1
      ended := if (command s.cdm).1 = 0x05 ∧ s.device.motor then s.ended ++ [s.device.count]
        else s.ended } := by
  rcases sessions.command_cases with ⟨cmd, _⟩ | ⟨cmd, stopped, missing⟩ | free
  · rw [cmd]
    exact ⟨sessions.told, sessions.running, sessions.starting⟩
  · rw [cmd]
    have told := sessions.told
    rw [if_neg fun both => absurd (missing.symm.trans both.2) (by decide)] at told
    refine ⟨?_, fun running => absurd (stopped.symm.trans running) (by decide), ?_⟩
    · dsimp only
      rw [if_neg fun both => absurd both.1 (by decide),
        if_neg fun both => absurd (missing.symm.trans both.2) (by decide)]
      exact told
    · intro off starting
      exact ⟨(sessions.starting off starting).1, fun _ => ⟨rfl, missing⟩⟩
  · rcases free.which with ⟨reset, _⟩ | ⟨request, _⟩
    · rw [reset]
      exact ⟨sessions.told, sessions.running, sessions.starting⟩
    cases pending : s.cdm.pendingStatus with
    | NO_ACTION =>
      rw [request, pending]
      exact ⟨sessions.told, sessions.running, sessions.starting⟩
    | START_PENDING =>
      have cmd : (command s.cdm).1 = 0x04 := by rw [request, pending]; rfl
      rw [cmd]
      have told := sessions.told
      refine ⟨?_, fun _ => ?_, fun off => absurd off (by simp [CoinDevice.execute])⟩
      · dsimp only
        rw [if_neg fun both => absurd both.1 (by decide),
          if_neg fun both => absurd both.1 (by simp [CoinDevice.execute])]
        rw [if_neg fun both => ?_] at told
        · exact told
        · obtain ⟨_, _, missing, _⟩ := sessions.started cmd both.1
          exact absurd (missing.symm.trans both.2) (by decide)
      · cases running : s.device.motor with
        | true => exact sessions.running running
        | false =>
          obtain ⟨shown, cleared, missing, _⟩ := sessions.started cmd running
          exact ⟨cleared, .inr ⟨shown, missing, by simp [pending]⟩⟩
    | STOP_PENDING =>
      have cmd : (command s.cdm).1 = 0x05 := by rw [request, pending]; rfl
      rw [cmd]
      have told := sessions.told
      refine ⟨?_, fun running => absurd running (by simp [CoinDevice.execute]),
        fun _ starting => absurd (pending.symm.trans starting) (by simp)⟩
      cases running : s.device.motor with
      | true =>
        have missing : s.cdm.coinsAcceptedNotifMissing = true := by
          rcases (sessions.running running).2 with ⟨_, missing⟩ | ⟨_, _, other⟩
          · exact missing
          · exact absurd pending other
        rw [if_neg fun both => absurd (running.symm.trans both.1) (by decide), append_nil] at told
        dsimp only
        rw [if_pos ⟨rfl, rfl⟩, if_pos ⟨rfl, missing⟩, map_append, told]
        rfl
      | false =>
        rw [running] at told
        exact told

theorem command_known (cdm : Cdm3000Data) : (command cdm).1 = 0x01 ∨ (command cdm).1 = 0x04 ∨
    (command cdm).1 = 0x05 ∨ (command cdm).1 = 0x06 ∨ (command cdm).1 = 0x07 ∨
      (command cdm).1 = 0x08 := by
  rcases CoinCounting.command_cases cdm with ⟨cmd, _⟩ | ⟨cmd, _⟩ | free
  · simp [cmd]
  · simp [cmd]
  · rcases free.which with ⟨cmd, _⟩ | ⟨cmd, _⟩
    · simp [cmd]
    · cases pending : cdm.pendingStatus <;> simp [cmd, pending, requestCommand]

theorem Inv.poll (inv : Inv coins s) (none : s.sent = none) :
    Inv coins (step coins .poll s) := by
  have same := same_afterWrite s.cdm
  have after := inv.toSessions.executed.of_same same
  rw [step_poll none]
  refine ⟨⟨after.told, after.running, after.starting⟩, ?_⟩
  intro sent here
  obtain rfl := Option.some.inj here
  dsimp only
  refine ⟨⟨_, _, rfl, rfl, fun _ => rfl⟩, command_known s.cdm, fun cmd => ?_, fun cmd => ?_,
    fun cmd => ?_, fun cmd => ?_⟩
  · dsimp only
    rw [cmd, same.missing]
    rcases inv.toSessions.command_cases with ⟨other, _⟩ | ⟨_, stopped, missing⟩ | free
    · exact absurd (cmd.symm.trans other) (by decide)
    · exact ⟨stopped, rfl, missing⟩
    · exact absurd cmd free.other.1
  · have pending : s.cdm.pendingStatus = .START_PENDING := pending_of_command cmd
    dsimp only
    rw [cmd, same.pendingStatus, pending]
    exact ⟨rfl, rfl, by simp [requestCommand]⟩
  · have pending : s.cdm.pendingStatus = .STOP_PENDING := pending_of_command cmd
    dsimp only
    rw [cmd, same.pendingStatus, pending]
    exact ⟨rfl, rfl, by simp [requestCommand]⟩
  · dsimp only
    rw [cmd, same.missing, same.motorRunning]
    rcases inv.toSessions.command_cases with ⟨_, counts⟩ | ⟨other, _⟩ | free
    · exact counts
    · exact absurd (cmd.symm.trans other) (by decide)
    · exact absurd cmd free.other.2

/-! ## The other steps -/

/-- Reading keeps the invariant, and discards a request only when it was acknowledged. -/
theorem Inv.receive (inv : Inv coins s) {first rest : List UInt8}
    (orderly : Orderly s (.receive first rest)) :
    Inv coins (step coins (.receive first rest) s) ∧
      (Discards coins s (.receive first rest) → Acknowledges s (.receive first rest)) := by
  cases sent : s.sent with
  | none =>
    have stays : step coins (.receive first rest) s = s := if_pos sent
    refine ⟨stays.symm ▸ inv, fun discards => absurd ?_ discards.2⟩
    rw [stays]
  | some last =>
    obtain ⟨cmd, frame⟩ := last
    have awaited : Awaited coins s cmd frame := inv.awaited (cmd, frame) sent
    have outcome := outcome_readReply awaited (orderly (cmd, frame) sent)
    have reads : step coins (.receive first rest) s =
        { s with cdm := readReply s.cdm first rest, sent := none } :=
      if_neg (by rw [sent]; exact Option.some_ne_none _)
    have after := inv.toSessions.outcome awaited outcome
    rw [reads]
    refine ⟨⟨⟨after.told, after.running, after.starting⟩, fun _ none => absurd none (by simp)⟩,
      fun discards => ?_⟩
    have changes : (readReply s.cdm first rest).pendingStatus ≠ s.cdm.pendingStatus := by
      have changes := discards.2
      rwa [reads] at changes
    cases outcome with
    | nothing _ same => exact absurd same.pendingStatus changes
    | status _ shown => exact absurd shown.pendingStatus changes
    | cleared _ same => exact absurd same.pendingStatus changes
    | counted _ same => exact absurd same.pendingStatus changes
    | acknowledged asked inTime _ =>
      rcases asked with rfl | rfl
      · obtain ⟨_, pending, written⟩ := awaited.started rfl
        exact ⟨written, _, sent, by rw [pending]; rfl, inTime⟩
      · obtain ⟨_, pending, written⟩ := awaited.stopped rfl
        exact ⟨written, _, sent, by rw [pending]; rfl, inTime⟩

theorem Inv.startCounting (inv : Inv coins s) (orderly : Orderly s .startCounting) :
    Inv coins (step coins .startCounting s) := by
  obtain ⟨pending, stopped, shown⟩ := orderly
  refine ⟨⟨inv.told, fun running => absurd (stopped.symm.trans running) (by decide),
    fun _ _ => ⟨shown, fun cleared => absurd cleared (by simp [step, cdmStartCounting])⟩⟩, ?_⟩
  intro sent here
  have awaited := inv.awaited sent here
  exact
    { reply := awaited.reply
      known := awaited.known
      cleared := awaited.cleared
      started := fun cmd => absurd (stopped.symm.trans (awaited.started cmd).1) (by decide)
      stopped := fun cmd => absurd (awaited.stopped cmd).2.1 pending
      counts := awaited.counts }

theorem Inv.stopCounting (inv : Inv coins s) (orderly : Orderly s .stopCounting) :
    Inv coins (step coins .stopCounting s) := by
  obtain ⟨pending, others, seen⟩ := orderly
  refine ⟨⟨inv.told, fun running => ⟨(inv.running running).1, .inl ?_⟩,
    fun _ starting => absurd starting (by simp [step, cdmStopCounting])⟩, ?_⟩
  · rcases (inv.running running).2 with shown | ⟨unseen, _⟩
    · exact shown
    · exact absurd unseen (seen running)
  intro sent here
  have awaited := inv.awaited sent here
  exact
    { reply := awaited.reply
      known := awaited.known
      cleared := awaited.cleared
      started := fun cmd => absurd (awaited.started cmd).2.1 pending
      stopped := fun cmd => absurd cmd (others sent here)
      counts := awaited.counts }

theorem Inv.counted (inv : Inv coins s) (count : Count) :
    Inv coins (step coins (.counted count) s) := by
  cases running : s.device.motor with
  | false =>
    have stays : step coins (.counted count) s = s := by simp [step, running]
    rwa [stays]
  | true =>
    have counts : step coins (.counted count) s = { s with device.count := count } :=
      if_pos running
    have runs : s.device.motor ≠ false := by rw [running]; decide
    rw [counts]
    have told := inv.told
    rw [if_neg fun both => runs both.1] at told
    refine ⟨⟨?_, inv.running, fun off => absurd off runs⟩, ?_⟩
    · dsimp only
      rw [if_neg fun both => runs both.1]
      exact told
    intro sent here
    have awaited := inv.awaited sent here
    obtain ⟨device, devId, frame, motor, _⟩ := awaited.reply
    exact
      { reply := ⟨device, devId, frame, motor, fun off => absurd off runs⟩
        known := awaited.known
        cleared := fun cmd => absurd (awaited.cleared cmd).1 runs
        started := awaited.started
        stopped := fun cmd => absurd (awaited.stopped cmd).1 runs
        counts := fun cmd => absurd (awaited.counts cmd).1 runs }

theorem Inv.deviceError (inv : Inv coins s) (error : UInt8) :
    Inv coins (step coins (.deviceError error) s) := by
  refine ⟨⟨inv.told, inv.running, inv.starting⟩, ?_⟩
  intro sent here
  have awaited := inv.awaited sent here
  exact
    { reply := awaited.reply
      known := awaited.known
      cleared := awaited.cleared
      started := awaited.started
      stopped := awaited.stopped
      counts := awaited.counts }

theorem Sessions.clearedInTime (sessions : Sessions coins s) : ClearedInTime coins s .poll := by
  intro _
  refine ⟨fun cmd => ?_, fun cmd stopped => (sessions.started cmd stopped).2.2.2⟩
  rcases sessions.command_cases with ⟨other, _⟩ | ⟨_, stopped, missing⟩ | free
  · exact absurd (cmd.symm.trans other) (by decide)
  · have told := sessions.told
    rw [if_neg fun both => absurd (missing.symm.trans both.2) (by decide), append_nil] at told
    exact ⟨stopped, told.symm⟩
  · exact absurd cmd free.other.1

theorem Inv.kept (inv : Inv coins s) {op : Op} (orderly : Orderly s op) :
    Inv coins (step coins op s) ∧ Sound coins s op := by
  cases op with
  | poll =>
    have keeps : (step coins .poll s).cdm.pendingStatus = s.cdm.pendingStatus := by
      by_cases none : s.sent = none
      · rw [step_poll none]
        exact (same_afterWrite s.cdm).pendingStatus
      · rw [step, if_neg none]
    refine ⟨?_, inv.toSessions.clearedInTime, fun discards => absurd keeps discards.2⟩
    by_cases none : s.sent = none
    · exact inv.poll none
    · rw [step, if_neg none]
      exact inv
  | receive first rest =>
    obtain ⟨next, acknowledged⟩ := inv.receive orderly
    exact ⟨next, trivial, acknowledged⟩
  | startCounting =>
    refine ⟨inv.startCounting orderly, trivial, fun discards => absurd ?_ discards.2⟩
    cases pending : s.cdm.pendingStatus with
    | NO_ACTION => exact absurd pending discards.1
    | START_PENDING => rfl
    | STOP_PENDING => exact absurd pending orderly.1
  | stopCounting =>
    refine ⟨inv.stopCounting orderly, trivial, fun discards => absurd ?_ discards.2⟩
    cases pending : s.cdm.pendingStatus with
    | NO_ACTION => exact absurd pending discards.1
    | START_PENDING => exact absurd pending orderly.1
    | STOP_PENDING => rfl
  | counted count =>
    refine ⟨inv.counted count, trivial, fun discards => absurd ?_ discards.2⟩
    rw [step]
    split_ifs <;> rfl
  | deviceError error =>
    exact ⟨inv.deviceError error, trivial, fun discards => absurd rfl discards.2⟩

end

/-! ## Polls that are answered -/

section

variable {coins} {s : System}

theorem resetQty_handleReply (cdm : Cdm3000Data) {dataPtr : Nat → UInt8}
    (code : dataPtr 1 ≠ 0x16) : (handleReply cdm dataPtr).resetQty = cdm.resetQty := by
  rw [handleReply, if_neg code]
  dsimp only
  split_ifs <;> rfl

theorem Inv.readInTime (inv : Inv coins s) {cmd : UInt8} {frame : List UInt8}
    (sent : s.sent = some (cmd, frame)) :
    let next := step coins (.receive (frame.take 8) (frame.drop 8)) s
    Inv coins next ∧ next.sent = none ∧ next.device = s.device ∧ next.ended = s.ended ∧
      Outcome coins s cmd True next.cdm ∧ (cmd ≠ 0x06 → next.cdm.resetQty = s.cdm.resetQty) := by
  intro next
  have awaited : Awaited coins s cmd frame := inv.awaited (cmd, frame) sent
  have orderly : Orderly s (.receive (frame.take 8) (frame.drop 8)) := by
    intro last here
    obtain rfl : (cmd, frame) = last := Option.some.inj (sent.symm.trans here)
    exact .inr (.inl ⟨rfl, rfl⟩)
  have reads : next =
      { s with cdm := readReply s.cdm (frame.take 8) (frame.drop 8), sent := none } :=
    if_neg (by rw [sent]; exact Option.some_ne_none _)
  have outcome := outcome_readReply awaited (orderly (cmd, frame) sent)
  refine ⟨(inv.receive orderly).1, by rw [reads], by rw [reads], by rw [reads], ?_, fun other => ?_⟩
  · rw [reads]
    cases outcome with
    | nothing other same => exact .nothing (fun _ => other ⟨rfl, rfl⟩) same
    | status other shown => exact .status (fun _ => other ⟨rfl, rfl⟩) shown
    | cleared asked same => exact .cleared asked same
    | acknowledged asked _ same => exact .acknowledged asked trivial same
    | counted asked same => exact .counted asked same
  · obtain ⟨device, devId, frame_eq, _⟩ := awaited.reply
    have read := cdmCommRead_reply devId (device.reply coins cmd).1 s.cdm.readBuf
      (length_reply coins device cmd)
    rw [← frame_eq] at read
    have code : (device.reply coins cmd).1 ≠ 0x16 := by
      rcases awaited.known with rfl | rfl | rfl | rfl | rfl | rfl
      · exact (by decide : (0x11 : UInt8) ≠ 0x16)
      · exact (by decide : (0x14 : UInt8) ≠ 0x16)
      · exact (by decide : (0x15 : UInt8) ≠ 0x16)
      · exact absurd rfl other
      · exact (by decide : (0x17 : UInt8) ≠ 0x16)
      · exact (by decide : (0x18 : UInt8) ≠ 0x16)
    rw [reads]
    dsimp only
    rw [readReply, if_pos read.1, resetQty_handleReply]
    exact fun here => code (read.2.1.symm.trans here)

/-- A session ended that is still to be told, and the loop writes next. -/
structure Owing (coins : CoinSet) (s : System) : Prop where
  inv : Inv coins s
  idle : s.sent = none
  stopped : s.device.motor = false
  missing : s.cdm.coinsAcceptedNotifMissing = true

/-- How many answered polls it takes. -/
def rank (cdm : Cdm3000Data) : Nat :=
  if cdm.motorRunning = 0 then 1
  else 2 + (if cdm.pendingStatus = .STOP_PENDING then 1 else 0) +
    (if 10 ≤ cdm.resetQty then 1 else 0)

theorem answered_idle (idle : s.sent = none) :
    let written := step coins .poll s
    ∃ frame, written.sent = some ((command s.cdm).1, frame) ∧
      answered coins s = step coins (.receive (frame.take 8) (frame.drop 8)) written := by
  intro written
  obtain ⟨frame, sent⟩ : ∃ frame, written.sent = some ((command s.cdm).1, frame) :=
    ⟨_, congrArg System.sent (step_poll idle)⟩
  refine ⟨frame, sent, ?_⟩
  rw [answered, show (step coins .poll s).sent = _ from sent]

theorem Owing.answered (owing : Owing coins s) :
    let next := answered coins s
    next.ended = s.ended ∧ (notices next.cdm = s.ended.map (view coins) ∨
      Owing coins next ∧ rank next.cdm < rank s.cdm) := by
  intro next
  obtain ⟨inv, idle, stopped, missing⟩ := owing
  obtain ⟨frame, sent, next_eq⟩ := @answered_idle coins s idle
  have next_eq : next = _ := next_eq
  obtain ⟨inv', idle', device, ended, outcome, resets⟩ := (inv.poll idle).readInTime sent
  rw [← next_eq] at inv' idle' device ended outcome resets
  have written := @step_poll coins s idle
  dsimp only at written
  have same := same_afterWrite s.cdm
  rw [written] at device ended outcome resets
  dsimp only at device ended outcome resets
  rw [if_neg fun both => absurd (stopped.symm.trans both.2) (by decide)] at ended
  refine ⟨ended, ?_⟩
  have told := inv.told
  rw [if_pos ⟨stopped, missing⟩] at told
  rcases inv.toSessions.command_cases with ⟨cmd, _⟩ | ⟨_, _, none⟩ | free
  · -- the counts are asked for
    left
    rw [cmd] at outcome
    cases outcome with
    | nothing other _ => exact absurd (other trivial) (by decide)
    | status other _ => exact absurd (other trivial) (by decide)
    | cleared asked _ => exact absurd asked (by decide)
    | acknowledged asked _ _ => exact absurd asked (by decide)
    | counted _ counted =>
      rw [counted.notices, told, ← same.notices]
      exact notices_tell (afterWrite s.cdm) (.coinsAccepted (view coins s.device.count).1
        (view coins s.device.count).2)
  · exact absurd (none.symm.trans missing) (by decide)
  · right
    have seen : s.cdm.motorRunning ≠ 0 := fun shown =>
      absurd ((free.told shown).symm.trans missing) (by decide)
    rcases free.which with ⟨cmd, errors⟩ | ⟨request, errors⟩
    · -- a reset
      rw [cmd] at outcome device
      have again := resets (by rw [cmd]; decide)
      cases outcome with
      | status other _ => exact absurd (other trivial) (by decide)
      | cleared asked _ => exact absurd asked (by decide)
      | acknowledged asked _ _ => exact absurd asked (by decide)
      | counted asked _ => exact absurd asked (by decide)
      | nothing _ nothing =>
        have after := same.trans nothing
        refine ⟨⟨inv', idle', ?_, after.missing.trans missing⟩, ?_⟩
        · rw [device]
          exact stopped
        · have zero : next.cdm.resetQty = 0 := by
            rw [again, afterWrite, if_pos cmd]
          rw [rank, rank, after.motorRunning, if_neg seen, if_neg seen, after.pendingStatus, zero,
            if_pos errors, if_neg (by decide : ¬ 10 ≤ 0)]
          omega
    · have few : ¬ 10 ≤ s.cdm.resetQty := Nat.not_le_of_lt errors
      cases pending : s.cdm.pendingStatus with
      | START_PENDING => exact absurd (inv.starting stopped pending).1 seen
      | NO_ACTION =>
        have cmd : (command s.cdm).1 = 0x06 := by rw [request, pending]; rfl
        rw [cmd] at outcome device
        cases outcome with
        | nothing other _ => exact absurd (other trivial) (by decide)
        | cleared asked _ => exact absurd asked (by decide)
        | acknowledged asked _ _ => exact absurd asked (by decide)
        | counted asked _ => exact absurd asked (by decide)
        | status _ shown =>
          refine ⟨⟨inv', idle', ?_, shown.missing.2 (.inl (same.missing.trans missing))⟩, ?_⟩
          · rw [device]
            exact stopped
          · have off : next.cdm.motorRunning = 0 :=
              shown.motorRunning.trans (if_neg fun running =>
                absurd (stopped.symm.trans running) (by decide))
            rw [rank, rank, if_pos off, if_neg seen]
            omega
      | STOP_PENDING =>
        have cmd : (command s.cdm).1 = 0x05 := by rw [request, pending]; rfl
        have again := resets (by rw [cmd]; decide)
        rw [cmd] at outcome device
        cases outcome with
        | nothing other _ => exact absurd (other trivial) (by decide)
        | status other _ => exact absurd (other trivial) (by decide)
        | cleared asked _ => exact absurd asked (by decide)
        | counted asked _ => exact absurd asked (by decide)
        | acknowledged _ _ done =>
          have owes := done.missing.trans (same.missing.trans missing)
          refine ⟨⟨inv', idle', by rw [device]; rfl, owes⟩, ?_⟩
          have resetQty : next.cdm.resetQty = s.cdm.resetQty := by
            rw [again, afterWrite, if_neg (by rw [cmd]; decide)]
          have moves : next.cdm.motorRunning = s.cdm.motorRunning :=
            done.motorRunning.trans same.motorRunning
          have none : next.cdm.pendingStatus = .NO_ACTION := done.pendingStatus
          rw [rank, rank, moves, resetQty, none, pending, if_neg seen, if_neg seen, if_neg few,
            if_pos rfl, if_neg (by simp)]
          omega

theorem ToldWithin.later {n : Nat} (ended : (answered coins s).ended = s.ended)
    (told : ToldWithin coins n (answered coins s)) : ToldWithin coins (n + 1) s := by
  obtain ⟨k, few, told⟩ := told
  refine ⟨k + 1, Nat.succ_le_succ few, ?_⟩
  rw [Function.iterate_succ_apply, told, ended]

theorem ToldWithin.mono {m n : Nat} (less : m ≤ n) (told : ToldWithin coins m s) :
    ToldWithin coins n s := by
  obtain ⟨k, few, told⟩ := told
  exact ⟨k, few.trans less, told⟩

theorem Owing.told {n : Nat} (owing : Owing coins s) (close : rank s.cdm ≤ n) :
    ToldWithin coins n s := by
  induction n generalizing s with
  | zero =>
    rw [rank] at close
    split_ifs at close <;> omega
  | succ n ih =>
    obtain ⟨ended, told | ⟨next, closer⟩⟩ := owing.answered
    · exact ToldWithin.later ended ⟨0, Nat.zero_le n, by rw [ended]; exact told⟩
    · exact ToldWithin.later ended (ih next (by omega))

theorem Inv.toldWithin (inv : Inv coins s) : ToldWithin coins 5 s := by
  have small (cdm : Cdm3000Data) : rank cdm ≤ 4 := by
    rw [rank]
    split_ifs <;> omega
  -- nothing is owed, or one session that the loop will ask for
  have idle {s : System} (inv : Inv coins s) (idle : s.sent = none) : ToldWithin coins 4 s := by
    by_cases owes : s.device.motor = false ∧ s.cdm.coinsAcceptedNotifMissing = true
    · exact Owing.told ⟨inv, idle, owes.1, owes.2⟩ (small s.cdm)
    · have told := inv.told
      rw [if_neg owes, append_nil] at told
      exact ⟨0, Nat.zero_le 4, told.symm⟩
  cases sent : s.sent with
  | none => exact (idle inv sent).mono (by decide)
  | some last =>
    obtain ⟨cmd, frame⟩ := last
    obtain ⟨inv', idle', _, ended, _⟩ := inv.readInTime sent
    have stays : step coins .poll s = s := if_neg (by rw [sent]; exact Option.some_ne_none _)
    have next : answered coins s =
        step coins (.receive (frame.take 8) (frame.drop 8)) s := by
      rw [answered, stays, sent]
    rw [← next] at inv' idle' ended
    exact ToldWithin.later ended (idle inv' idle')

end

/-! ## Every orderly run -/

theorem inv_start (cdm : Cdm3000Data) (error : UInt8) (count : Count)
    (none : cdm.coinsAcceptedNotifMissing = false) (fresh : notices cdm = [])
    (quiet : cdm.pendingStatus = .NO_ACTION) : Inv coins (start cdm error count) where
  told := by
    show [] = notices cdm ++ _
    rw [fresh]
    exact (if_neg fun both => absurd (none.symm.trans both.2) (by decide)).symm
  running := fun running => absurd running (by simp [start])
  starting := fun _ starting => absurd (quiet.symm.trans starting) (by simp)
  awaited := fun _ here => absurd here (by simp [start])

/-- In a run that is orderly each session that ended is told once, in its order and with its
counts, no later than after five polls that are answered.  No count is cleared before it is
told, and a request is discarded only by the reply to its command. -/
theorem sessions_told (devId : UInt8) (readBuf : Nat → UInt8) (motorRunning errorStatus : UInt8)
    (error : UInt8) (count : Count) (ops : List Op)
    (orderly : Trace.Always (step coins) Orderly ops
      (start (cdmNew devId readBuf motorRunning errorStatus) error count)) :
    let begins := start (cdmNew devId readBuf motorRunning errorStatus) error count
    let ends := Trace.after (step coins) ops begins
    (∃ owed, ends.ended.map (view coins) = notices ends.cdm ++ owed ∧ owed.length ≤ 1) ∧
      ToldWithin coins 5 ends ∧ Trace.Always (step coins) (Sound coins) ops begins := by
  intro begins ends
  have first : Inv coins begins := inv_start coins _ error count rfl rfl rfl
  have last : Inv coins ends :=
    Trace.Always.after_of_invariant (Inv coins) (fun inv ok => (inv.kept ok).1) first orderly
  refine ⟨⟨_, last.told, ?_⟩, last.toldWithin,
    Trace.Always.of_invariant (Inv coins) (fun inv ok => inv.kept ok) first orderly⟩
  split_ifs
  · exact le_rfl
  · exact Nat.zero_le 1

/-! ## A run -/

instance (s : System) (dataPtr : Nat → UInt8) : Decidable (Harmless s dataPtr) :=
  inferInstanceAs (Decidable (_ ∧ _))

instance (s : System) : (op : Op) → Decidable (Orderly s op)
  | .receive _ _ => inferInstanceAs (Decidable (∀ sent ∈ s.sent, _ ∨ _))
  | .startCounting | .stopCounting => inferInstanceAs (Decidable (_ ∧ _))
  | .poll | .counted _ | .deviceError _ => inferInstanceAs (Decidable True)

/-- Coins of one unit, and so on up to nine. -/
def nineCoins : CoinSet := ⟨fun i => ⟨i + 1, by omega⟩, fun _ => ⟨0, by decide⟩, 0x30, 0x2E⟩

/-- The loop reads a frame. -/
def reads (code : UInt8) (data : List UInt8) : Op :=
  let frame := cdmCommWrite 1 code data
  .receive (frame.take 8) (frame.drop 8)

def newLoop : System := start (cdmNew 1 (fun _ => 0) 0 0) 0 .zero

/-- From the first clear to the reply to the start. -/
def startsCounting : List Op :=
  [.poll, reads 0x11 [], .startCounting, .poll, reads 0x11 [], .poll]

def threeCoins : Count :=
  ⟨fun i => if i.val = 2 then ⟨3, by decide⟩ else Count.zero.qty i, ⟨1, by decide⟩⟩

/-- A session of three coins, with a status that is lost and one that comes late. -/
def oneSession : List Op :=
  startsCounting ++ [reads 0x14 [], .poll, .receive [] [], .poll, reads 0x16 [0x31, 0x30],
    .counted threeCoins, .poll, reads 0x16 [0x31, 0x30], .stopCounting, .poll,
    reads 0x15 [], .poll, reads 0x16 [0x30, 0x30], .poll,
    reads 0x18 (report nineCoins threeCoins)]

theorem sessions_told_once :
    Trace.Always (step nineCoins) Orderly oneSession newLoop ∧
    (Trace.after (step nineCoins) oneSession newLoop).ended = [threeCoins] ∧
    ToldWithin nineCoins 5 (Trace.after (step nineCoins) oneSession newLoop) := by
  have orderly : Trace.Always (step nineCoins) Orderly oneSession newLoop := by decide +kernel
  exact ⟨orderly, by decide +kernel,
    (sessions_told nineCoins 1 (fun _ => 0) 0 0 0 .zero oneSession orderly).2.1⟩

/-- All that is read is the reply to what was just written. -/
def InTime (s : System) : Op → Prop
  | .receive first rest => ∀ sent ∈ s.sent, first = sent.2.take 8 ∧ rest = sent.2.drop 8
  | _ => True

instance (s : System) : (op : Op) → Decidable (InTime s op)
  | .receive _ _ => inferInstanceAs (Decidable (∀ sent ∈ s.sent, _ ∧ _))
  | .poll | .startCounting | .stopCounting | .counted _ | .deviceError _ =>
    inferInstanceAs (Decidable True)

/-- A stop that is asked for before the reply to the start is discarded by it: the motor
runs on, and no command to stop was written. -/
theorem stop_discarded :
    Trace.Always (step nineCoins) InTime
      (startsCounting ++ [.stopCounting, reads 0x14 []]) newLoop ∧
    ¬ Trace.Always (step nineCoins) (Sound nineCoins)
      (startsCounting ++ [.stopCounting, reads 0x14 []]) newLoop := by
  constructor <;> decide +kernel

end CimArm.CoinCounting
