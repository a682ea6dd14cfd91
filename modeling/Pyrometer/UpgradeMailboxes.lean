import Pyrometer.UpgradeSteps

/-!
# The mailboxes of repeated upgrades

Every run of the upgrade task creates a mailbox and none is ever deleted, while `mail_box.c` makes
no more than eight. From the ninth run since power-up on there is none: the posts of the data
handler are lost, the task sees every fetch as a timeout, and gives up after its retries.

The runs and the requests that the task sends are counted beside the unit.
-/

namespace Pyrometer.UpgradeMailboxes

open NorFlash FirmwareInfo UpgradeSession UpgradeSteps Runs

/-- The unit with the runs of the task since power-up, and the requests of the present one. -/
structure Counted where
  unit : Upgrade
  begun : Nat
  requests : Nat

/-- The agent takes a posted run of the task. -/
def beginsRun (unit : Upgrade) : Event → Bool
  | .packet _ => false
  | .wake => false
  | .task => unit.task == .idle && !unit.agentQueue.isEmpty

/-- The task sends a request. -/
def sendsRequest (unit : Upgrade) : Event → Bool
  | .packet _ => false
  | .wake => false
  | .task =>
      match unit.task with
      | .request _ => unit.fwInfo.status != ugStateCanceled
      | _ => false

/-- One event with its counts. -/
def count (counted : Counted) (event : Event) : Counted where
  unit := step counted.unit event
  begun := if beginsRun counted.unit event then counted.begun + 1 else counted.begun
  requests :=
    if beginsRun counted.unit event then 0
    else if sendsRequest counted.unit event then counted.requests + 1
    else counted.requests

/-- The counts at power-up. -/
def powerUp (fmc : Device) : Counted := ⟨.start fmc, 0, 0⟩

/-- Retries that are left at a point of the task, for the requests that were sent. -/
def RetriesLeft (requests : Nat) : TaskPoint → Prop
  | .idle => requests ≤ fwDataRetry
  | .eraseFirst => requests = 0
  | .eraseSecond => requests = 0
  | .loop => requests = 0
  | .request retry => 0 < retry ∧ requests + retry = fwDataRetry
  | .fetch retry => 0 < retry ∧ requests + retry = fwDataRetry + 1

/-- What holds of the counts: a mailbox for each run up to the eighth, the newest of which is in
use, and none behind that, where no request is followed by more than the retries. -/
structure Accounts (counted : Counted) : Prop where
  created : counted.unit.mboxCount = min counted.begun mboxMaxCount
  present : counted.unit.xferMb.isSome = true ↔
    0 < counted.begun ∧ counted.begun ≤ mboxMaxCount
  bounded : mboxMaxCount < counted.begun → RetriesLeft counted.requests counted.unit.task

/-- A post changes what is in a mailbox, not whether there is one. -/
theorem mbox_post_present (mailbox : Option (List Msg)) (msg : Msg) :
    (mboxPost mailbox msg).isSome = mailbox.isSome := by
  cases mailbox <;> rfl

/-- An event that leaves the mailboxes, the task and the counts as they are. -/
theorem accounts_kept {before after : Counted} (accounts : Accounts before)
    (created : after.unit.mboxCount = before.unit.mboxCount)
    (present : after.unit.xferMb.isSome = before.unit.xferMb.isSome)
    (task : after.unit.task = before.unit.task) (begun : after.begun = before.begun)
    (requests : after.requests = before.requests) : Accounts after := by
  refine ⟨?_, ?_, ?_⟩
  · rw [created, begun]
    exact accounts.created
  · rw [present, begun]
    exact accounts.present
  · rw [begun, requests, task]
    exact accounts.bounded

/-- A packet makes no mailbox and does not move the task. -/
theorem packet_accounts (packet : Packet) {counted : Counted} (accounts : Accounts counted) :
    Accounts (count counted (.packet packet)) := by
  have kept : (step counted.unit (.packet packet)).mboxCount = counted.unit.mboxCount ∧
      (step counted.unit (.packet packet)).xferMb.isSome = counted.unit.xferMb.isSome ∧
      (step counted.unit (.packet packet)).task = counted.unit.task := by
    rw [step]
    rcases receive_cases packet counted.unit with ⟨_, left⟩ | ⟨_, left⟩ | ⟨_, left⟩ | ⟨_, left⟩ |
      ⟨_, _, _, _, left⟩
    · obtain ⟨queue, _, posted⟩ := agent_post_keeps packet.port
        (saveInfo { counted.unit with
          fwInfo := notifiedInfo packet.data packet.port counted.unit.fwInfo })
      rw [left, notified, posted]
      exact ⟨rfl, rfl, rfl⟩
    · rw [left]
      exact ⟨rfl, rfl, rfl⟩
    · rw [left]
      exact ⟨rfl, rfl, rfl⟩
    · rw [left]
      exact ⟨rfl, mbox_post_present _ _, rfl⟩
    · rw [left]
      exact ⟨rfl, rfl, rfl⟩
  exact accounts_kept accounts kept.1 kept.2.1 kept.2.2 rfl rfl

/-- A delayed post does neither. -/
theorem wake_accounts {counted : Counted} (accounts : Accounts counted) :
    Accounts (count counted .wake) := by
  have kept : (wakeUp counted.unit).mboxCount = counted.unit.mboxCount ∧
      (wakeUp counted.unit).xferMb.isSome = counted.unit.xferMb.isSome ∧
      (wakeUp counted.unit).task = counted.unit.task := by
    unfold wakeUp
    split
    · exact ⟨rfl, rfl, rfl⟩
    · exact ⟨rfl, mbox_post_present _ _, rfl⟩
  exact accounts_kept accounts kept.1 kept.2.1 kept.2.2 rfl rfl

/-- A run that begins creates a mailbox as long as there are fewer than eight. -/
theorem begin_accounts {counted : Counted} {port : BitVec 32} {rest : List (BitVec 32)}
    (accounts : Accounts counted) (idle : counted.unit.task = .idle)
    (queue : counted.unit.agentQueue = port :: rest) : Accounts (count counted .task) := by
  have begins : beginsRun counted.unit .task = true := by simp [beginsRun, idle, queue]
  have taken : step counted.unit .task = { setStatus ugStateTrans (upgradeInit counted.unit) with
      agentQueue := rest, task := .eraseFirst } := by
    simp only [step, upgradeTask, idle, queue]
  have created := accounts.created
  unfold mboxMaxCount at created
  by_cases full : counted.unit.mboxCount = mboxMaxCount
  · have many : 8 ≤ counted.begun := by
      unfold mboxMaxCount at full
      omega
    refine ⟨?_, ?_, ?_⟩
    · simp only [count, taken, begins, if_true, setStatus, upgradeInit, if_pos full]
      rw [full]
      unfold mboxMaxCount
      omega
    · simp only [count, taken, begins, if_true, setStatus, upgradeInit, if_pos full]
      unfold mboxMaxCount
      constructor
      · exact fun absent => absurd absent (by decide)
      · rintro ⟨_, few⟩
        omega
    · intro _
      simp [count, taken, begins, RetriesLeft]
  · have few : counted.begun < 8 := by
      unfold mboxMaxCount at full
      omega
    refine ⟨?_, ?_, ?_⟩
    · simp only [count, taken, begins, if_true, setStatus, upgradeInit, if_neg full]
      unfold mboxMaxCount
      omega
    · simp only [count, taken, begins, if_true, setStatus, upgradeInit, if_neg full]
      unfold mboxMaxCount
      exact iff_of_true rfl ⟨by omega, by omega⟩
    · intro _
      simp [count, taken, begins, RetriesLeft]

/-- A retry is counted, or the run is over. -/
theorem retry_left {requests : Nat} (retry : Nat) (unit : Upgrade)
    (sent : requests + retry = fwDataRetry) :
    (taskRetry retry unit).mboxCount = unit.mboxCount ∧
      (taskRetry retry unit).xferMb = unit.xferMb ∧
      RetriesLeft requests (taskRetry retry unit).task := by
  unfold taskRetry
  split
  case isTrue none =>
    refine ⟨rfl, rfl, ?_⟩
    change requests ≤ fwDataRetry
    omega
  case isFalse some => exact ⟨rfl, rfl, Nat.pos_of_ne_zero some, sent⟩

/-- An action of the task that begins no run and makes no mailbox. -/
theorem action_accounts {counted : Counted} (accounts : Accounts counted)
    (goesOn : beginsRun counted.unit .task = false)
    (created : (upgradeTask counted.unit).mboxCount = counted.unit.mboxCount)
    (present : (upgradeTask counted.unit).xferMb.isSome = counted.unit.xferMb.isSome)
    (bounded : mboxMaxCount < counted.begun → RetriesLeft
      (if sendsRequest counted.unit .task then counted.requests + 1 else counted.requests)
      (upgradeTask counted.unit).task) : Accounts (count counted .task) := by
  have begun : (count counted .task).begun = counted.begun := by simp [count, goesOn]
  have requests : (count counted .task).requests =
      if sendsRequest counted.unit .task then counted.requests + 1 else counted.requests := by
    simp [count, goesOn]
  refine ⟨?_, ?_, ?_⟩
  · rw [begun]
    exact created.trans accounts.created
  · rw [begun]
    exact present ▸ accounts.present
  · rw [begun, requests]
    exact bounded

/-- A run that is over has sent no more requests than it has retries. -/
theorem over_bounded {requests : Nat} {unit : Upgrade} (few : requests ≤ fwDataRetry) :
    RetriesLeft requests (taskOver unit).task := few

/-- A fetch without a mailbox is a timeout. -/
theorem fetch_missing {unit : Upgrade} {retry : Nat} (point : unit.task = .fetch retry)
    (missing : unit.xferMb = none) : upgradeTask unit = taskRetry (retry - 1) unit := by
  simp only [upgradeTask, point, missing]

/-- A fetch takes a message or nothing; the mailbox stays. -/
theorem fetch_keeps {unit : Upgrade} {retry : Nat} (point : unit.task = .fetch retry) :
    (upgradeTask unit).mboxCount = unit.mboxCount ∧
      (upgradeTask unit).xferMb.isSome = unit.xferMb.isSome := by
  have retried (other : Upgrade) : (taskRetry (retry - 1) other).mboxCount = other.mboxCount ∧
      (taskRetry (retry - 1) other).xferMb = other.xferMb := by
    unfold taskRetry
    split <;> exact ⟨rfl, rfl⟩
  cases mailbox : unit.xferMb with
  | none =>
    rw [fetch_missing point mailbox, (retried unit).1, (retried unit).2, mailbox]
    exact ⟨rfl, rfl⟩
  | some queue =>
    cases queue with
    | nil =>
      have timeout : upgradeTask unit = taskRetry (retry - 1) unit := by
        simp only [upgradeTask, point, mailbox]
      rw [timeout, (retried unit).1, (retried unit).2, mailbox]
      exact ⟨rfl, rfl⟩
    | cons msg rest =>
      cases msg with
      | stopUg =>
        have stopped : upgradeTask unit =
            taskRetry (retry - 1) { unit with xferMb := some rest } := by
          simp only [upgradeTask, point, mailbox]
        rw [stopped, (retried _).1, (retried _).2]
        exact ⟨rfl, rfl⟩
      | recvData =>
        have received : upgradeTask unit = { unit with xferMb := some rest, task := .loop } := by
          simp only [upgradeTask, point, mailbox]
        rw [received]
        exact ⟨rfl, rfl⟩

/-- Behind the eighth run there is no mailbox. -/
theorem accounts_missing {counted : Counted} (accounts : Accounts counted)
    (many : mboxMaxCount < counted.begun) : counted.unit.xferMb = none := by
  rw [← Option.not_isSome_iff_eq_none, accounts.present]
  omega

/-- Every action of the task keeps the accounts. -/
theorem task_accounts {counted : Counted} (accounts : Accounts counted) :
    Accounts (count counted .task) := by
  cases point : counted.unit.task with
  | idle =>
    cases queue : counted.unit.agentQueue with
    | cons port rest => exact begin_accounts accounts point queue
    | nil =>
      have same : upgradeTask counted.unit = counted.unit := by
        simp only [upgradeTask, point, queue]
      apply action_accounts accounts (by simp [beginsRun, queue]) (by rw [same]) (by rw [same])
      intro many
      rw [same]
      simpa [sendsRequest, point] using accounts.bounded many
  | eraseFirst =>
    have erased : (upgradeTask counted.unit).task = .eraseSecond := by
      simp only [upgradeTask, point]
    apply action_accounts accounts (by simp [beginsRun, point]) (by simp only [upgradeTask, point])
      (by simp only [upgradeTask, point])
    intro many
    have absent := accounts.bounded many
    rw [point] at absent
    rw [erased]
    simpa [sendsRequest, point, RetriesLeft] using absent
  | eraseSecond =>
    have erased : (upgradeTask counted.unit).task = .loop := by
      simp only [upgradeTask, point]
    apply action_accounts accounts (by simp [beginsRun, point]) (by simp only [upgradeTask, point])
      (by simp only [upgradeTask, point])
    intro many
    have nothing := accounts.bounded many
    rw [point] at nothing
    rw [erased]
    simpa [sendsRequest, point, RetriesLeft] using nothing
  | loop =>
    have quiet : sendsRequest counted.unit .task = false := by simp [sendsRequest, point]
    have goesOn : beginsRun counted.unit .task = false := by simp [beginsRun, point]
    have outcome : upgradeTask counted.unit = taskOver counted.unit ∨
        upgradeTask counted.unit = taskRetry fwDataRetry counted.unit := by
      simp only [upgradeTask, point]
      split
      · split
        · exact .inl rfl
        · exact .inr rfl
      · exact .inl rfl
    have zero : mboxMaxCount < counted.begun → counted.requests = 0 := by
      intro many
      have left := accounts.bounded many
      rwa [point] at left
    rcases outcome with ended | retried
    · apply action_accounts accounts goesOn (by rw [ended]; rfl) (by rw [ended]; rfl)
      intro many
      rw [quiet, ended]
      apply over_bounded
      simp [zero many]
    · have kept := retry_left fwDataRetry counted.unit (Nat.zero_add fwDataRetry)
      apply action_accounts accounts goesOn (by rw [retried, kept.1]) (by rw [retried, kept.2.1])
      intro many
      rw [quiet, retried, if_neg Bool.false_ne_true, zero many]
      exact kept.2.2
  | request retry =>
    have goesOn : beginsRun counted.unit .task = false := by simp [beginsRun, point]
    have left : mboxMaxCount < counted.begun →
        0 < retry ∧ counted.requests + retry = fwDataRetry := by
      intro many
      have bounded := accounts.bounded many
      rwa [point] at bounded
    by_cases stopped : counted.unit.fwInfo.status = ugStateCanceled
    · have quiet : sendsRequest counted.unit .task = false := by
        simp [sendsRequest, point, stopped]
      have ended : upgradeTask counted.unit = taskOver counted.unit := by
        simp only [upgradeTask, point, if_pos stopped]
      apply action_accounts accounts goesOn (by rw [ended]; rfl) (by rw [ended]; rfl)
      intro many
      rw [quiet, ended, if_neg Bool.false_ne_true]
      apply over_bounded
      have sent := (left many).2
      omega
    · have sends : sendsRequest counted.unit .task = true := by
        simp [sendsRequest, point, stopped]
      have fetches : upgradeTask counted.unit = { counted.unit with task := .fetch retry } := by
        simp only [upgradeTask, point, if_neg stopped]
      apply action_accounts accounts goesOn (by rw [fetches]) (by rw [fetches])
      intro many
      rw [sends, fetches, if_pos rfl]
      obtain ⟨positive, sent⟩ := left many
      exact ⟨positive, by omega⟩
  | fetch retry =>
    have quiet : sendsRequest counted.unit .task = false := by simp [sendsRequest, point]
    have kept := fetch_keeps point
    apply action_accounts accounts (by simp [beginsRun, point]) kept.1 kept.2
    intro many
    have left := accounts.bounded many
    rw [point] at left
    obtain ⟨positive, sent⟩ := left
    rw [quiet, fetch_missing point (accounts_missing accounts many), if_neg Bool.false_ne_true]
    exact (retry_left (retry - 1) counted.unit (by omega)).2.2

/-- Every event keeps the accounts. -/
theorem count_accounts (counted : Counted) (event : Event) (accounts : Accounts counted) :
    Accounts (count counted event) := by
  cases event with
  | packet packet => exact packet_accounts packet accounts
  | wake => exact wake_accounts accounts
  | task => exact task_accounts accounts

/-- The mailboxes of any run from power-up, on any flash and with any order of packets, delayed
posts and task actions: there are as many as runs of the upgrade task have begun, up to eight; the
task has one exactly from its first to its eighth run; and behind that it never takes another
message, and sends at most three requests in each run. -/
theorem mailboxes_run_out (fmc : Device) (events : List Event) :
    (run count (powerUp fmc) events).unit.mboxCount =
        min (run count (powerUp fmc) events).begun 8 ∧
      ((run count (powerUp fmc) events).unit.xferMb.isSome = true ↔
        0 < (run count (powerUp fmc) events).begun ∧
          (run count (powerUp fmc) events).begun ≤ 8) ∧
      (8 < (run count (powerUp fmc) events).begun →
        (run count (powerUp fmc) events).requests ≤ 3) := by
  have start : Accounts (powerUp fmc) := by
    refine ⟨rfl, ?_, fun many => absurd many (Nat.not_lt_zero _)⟩
    exact iff_of_false Bool.false_ne_true fun runs => absurd runs.1 (Nat.lt_irrefl 0)
  have accounts : Accounts (run count (powerUp fmc) events) :=
    run_invariant count count_accounts (powerUp fmc) start events
  refine ⟨accounts.created, accounts.present, fun many => ?_⟩
  have left := accounts.bounded many
  revert left
  cases (run count (powerUp fmc) events).unit.task with
  | idle => exact id
  | eraseFirst => exact fun nothing => nothing ▸ Nat.zero_le 3
  | eraseSecond => exact fun nothing => nothing ▸ Nat.zero_le 3
  | loop => exact fun nothing => nothing ▸ Nat.zero_le 3
  | request retry =>
    rintro ⟨_, sent⟩
    unfold fwDataRetry at sent
    omega
  | fetch retry =>
    rintro ⟨_, sent⟩
    unfold fwDataRetry at sent
    omega

end Pyrometer.UpgradeMailboxes
