import Pyrometer.Runs

/-!
# The requests to the system

The commands `PR` and `RS` store their value into `sys_op.recover` and `sys_op.reset` and
then set `sys_op.valid`. `sys_cmd_handler` runs once a second. If `valid` is set it tests
`recover` for each of the four operations, makes the one that it finds, clears `recover`,
restarts the instrument if `reset` is set or a new firmware was checked, and else clears
`valid`.

Each store, each test and each operation is one step here, and the steps of commands and
of the handler come in any order; several commands may be between their two stores. The
requests of `PR` are numbered as their values are stored, and `recover` carries the number
of the request whose value it holds. A request of `RS` is carried out by a restart, which
ends the run; nothing else clears `reset`. A value of `PR` is one that its range allows.
-/

namespace Pyrometer.SystemRequests

open Runs

/-- The values of `recover` and their operations: `pmm_restore_to_factory`,
`pmm_save_to_factory`, `pmm_restore_to_default` and `pmm_save_to_backup`. -/
inductive Recover where
  | restoreToFactory
  | saveToFactory
  | restoreToDefault
  | saveToBackup
  deriving DecidableEq

/-- The number of an operation. -/
def Recover.value : Recover → Nat
  | .restoreToFactory => 1
  | .saveToFactory => 2
  | .restoreToDefault => 3
  | .saveToBackup => 4

/-- The operation that is tested for next. -/
def Recover.next : Recover → Option Recover
  | .restoreToFactory => some .saveToFactory
  | .saveToFactory => some .restoreToDefault
  | .restoreToDefault => some .saveToBackup
  | .saveToBackup => none

/-- What `sys_cmd_handler` does next. -/
inductive Point where
  /-- It tests `valid`, at the start of a run. -/
  | idle
  /-- It tests `recover` for an operation. -/
  | recoverTest (operation : Recover)
  /-- It makes the operation that the test found for a request. -/
  | operation (operation : Recover) (request : Nat)
  /-- It clears `recover`. -/
  | clearRecover
  /-- It tests for a new firmware. -/
  | upgradeTest
  /-- It tests `reset`. -/
  | resetTest
  /-- It clears `valid`. -/
  | clearValid
  /-- It has restarted the instrument. -/
  | restarted
  deriving DecidableEq

/-- `sys_op_t`, the commands between their two stores, the point of the handler, and which
of the requests of `PR` were executed. -/
structure System where
  valid : Bool
  reset : Bool
  recover : Option (Recover × Nat)
  storing : Nat
  point : Point
  accepted : Nat
  executed : List Nat

/-- A store of a command, or the next step of the handler. -/
inductive Event where
  /-- `PR` stores its value. -/
  | storeRecover (operation : Recover)
  /-- `RS` stores its value. -/
  | storeReset
  /-- A command that has stored its value sets `valid`. -/
  | storeValid
  /-- A step of `sys_cmd_handler`; whether a new firmware is checked. -/
  | handler (checkPass : Bool)
  deriving DecidableEq

/-- Where a test that does not find its operation goes on. -/
def afterTest (operation : Recover) : Point :=
  match operation.next with
  | some next => .recoverTest next
  | none => .clearRecover

/-- A step of `sys_cmd_handler`. -/
def sysCmdHandler (checkPass : Bool) (system : System) : System :=
  match system.point with
  | .idle =>
    if system.valid then { system with point := .recoverTest .restoreToFactory } else system
  | .recoverTest operation =>
    match system.recover with
    | some (held, request) =>
      if held = operation then { system with point := .operation operation request }
      else { system with point := afterTest operation }
    | none => { system with point := afterTest operation }
  | .operation _ request =>
    { system with executed := request :: system.executed, point := .clearRecover }
  | .clearRecover => { system with recover := none, point := .upgradeTest }
  | .upgradeTest => { system with point := if checkPass then .restarted else .resetTest }
  | .resetTest => { system with point := if system.reset then .restarted else .clearValid }
  | .clearValid => { system with valid := false, point := .idle }
  | .restarted => system

/-- One step. A restart ends the run. -/
def step (system : System) (event : Event) : System :=
  if system.point = .restarted then system
  else
    match event with
    | .storeRecover operation =>
      { system with
        recover := some (operation, system.accepted)
        accepted := system.accepted + 1
        storing := system.storing + 1 }
    | .storeReset => { system with reset := true, storing := system.storing + 1 }
    | .storeValid =>
      if system.storing = 0 then system
      else { system with valid := true, storing := system.storing - 1 }
    | .handler checkPass => sysCmdHandler checkPass system

/-- The start. -/
def boot : System := ⟨false, false, none, 0, .idle, 0, []⟩

/-- All requests of `PR` were executed. -/
def AllExecuted (system : System) : Prop :=
  ∀ request < system.accepted, request ∈ system.executed

/-- What each step should do: no request is executed twice, `recover` is not cleared while
the request it holds was not executed, and `valid` is not cleared while a request was not. -/
structure Safe (system : System) (event : Event) : Prop where
  once : (step system event).executed.Nodup
  recover : ∀ checkPass, event = .handler checkPass → system.point = .clearRecover →
    ∀ held request, system.recover = some (held, request) → request ∈ system.executed
  valid : ∀ checkPass, event = .handler checkPass → system.point = .clearValid →
    system.reset = false ∧ AllExecuted system

/-- An event that is not the store of a value. -/
def Quiet : Event → Prop
  | .storeRecover _ => False
  | .storeReset => False
  | .storeValid => True
  | .handler _ => True

/-- Whatever the handler and the commands that have stored their values do next is what it
should be. -/
def Sound (system : System) : Prop :=
  ∀ more : List Event, (∀ event ∈ more, Quiet event) → Along step Safe system more

/-- The handler has not come to the test for an operation in its run. -/
def Ahead (operation : Recover) (point : Point) : Prop :=
  point = .idle ∨ ∃ tested, point = .recoverTest tested ∧ tested.value ≤ operation.value

/-- When a value may be stored. That of `PR`: when the handler will still find it in its
run, and the requests before it were executed or a restart is asked for; or with a restart
asked for, once `recover` is cleared. That of `RS`: unless `valid` is about to be cleared. -/
def Careful (system : System) : Event → Prop
  | .storeRecover operation =>
    system.point = .restarted ∨
      (Ahead operation system.point ∧ (system.reset = true ∨ AllExecuted system)) ∨
      (system.reset = true ∧ (system.point = .upgradeTest ∨ system.point = .resetTest))
  | .storeReset => system.point ≠ .clearValid
  | .storeValid => True
  | .handler _ => True

/-- What holds in every state: only requests that were accepted are executed, none twice;
an operation that is about to be made was not made for its request; and `recover` holds a
request that was executed only until it is cleared. -/
structure Numbered (system : System) : Prop where
  nodup : system.executed.Nodup
  known : ∀ request ∈ system.executed, request < system.accepted
  held : ∀ operation request, system.recover = some (operation, request) →
    request < system.accepted ∧ (request ∈ system.executed → system.point = .clearRecover)
  found : ∀ operation request, system.point = .operation operation request →
    request < system.accepted ∧ request ∉ system.executed

/-- What careful steps preserve: a request that `recover` holds will be found in this run of
the handler or a later one; without a restart asked for, all others were executed; and
`valid` is not cleared when a restart is asked for. -/
structure Kept (system : System) : Prop where
  numbered : Numbered system
  holds : ∀ operation request, system.recover = some (operation, request) →
    request ∉ system.executed →
      Ahead operation system.point ∨ system.point = .operation operation request ∨
        (system.reset = true ∧ (system.point = .upgradeTest ∨ system.point = .resetTest)) ∨
        system.point = .restarted
  found : ∀ operation request, system.point = .operation operation request →
    system.recover = some (operation, request)
  only : system.reset = false → system.point ≠ .restarted → ∀ request < system.accepted,
    request ∉ system.executed → ∃ operation, system.recover = some (operation, request)
  cleared : system.point = .clearValid → system.reset = false

/-- After a restart nothing happens. -/
theorem step_restarted {system : System} (restarted : system.point = .restarted) (event : Event) :
    step system event = system := if_pos restarted

/-- Before a restart the handler makes its step. -/
theorem step_handler {system : System} (running : system.point ≠ .restarted) (checkPass : Bool) :
    step system (.handler checkPass) = sysCmdHandler checkPass system := if_neg running

/-- The store of a value of `PR`. -/
theorem step_recover {system : System} (running : system.point ≠ .restarted)
    (operation : Recover) :
    step system (.storeRecover operation) =
      { system with
        recover := some (operation, system.accepted)
        accepted := system.accepted + 1
        storing := system.storing + 1 } := if_neg running

/-- The store of the value of `RS`. -/
theorem step_reset {system : System} (running : system.point ≠ .restarted) :
    step system .storeReset = { system with reset := true, storing := system.storing + 1 } :=
  if_neg running

/-- The store of `valid` changes nothing but `valid` and the commands between their stores. -/
theorem step_valid (system : System) :
    ∃ valid storing,
      step system .storeValid = { system with valid := valid, storing := storing } := by
  by_cases restarted : system.point = .restarted
  · exact ⟨system.valid, system.storing, step_restarted restarted _⟩
  · by_cases none : system.storing = 0
    · refine ⟨system.valid, system.storing, ?_⟩
      simp only [step, restarted, none, if_true, if_false]
      rw [← none]
    · refine ⟨true, system.storing - 1, ?_⟩
      simp only [step, restarted, none, if_false]

/-- A run of the handler starts if `valid` is set. -/
theorem handler_start {system : System} (idle : system.point = .idle) (valid : system.valid = true)
    (checkPass : Bool) :
    sysCmdHandler checkPass system = { system with point := .recoverTest .restoreToFactory } := by
  simp only [sysCmdHandler, idle, valid, if_true]

/-- A test that finds its operation goes on to it. -/
theorem handler_found {system : System} {operation : Recover} {request : Nat}
    (testing : system.point = .recoverTest operation)
    (holds : system.recover = some (operation, request)) (checkPass : Bool) :
    sysCmdHandler checkPass system = { system with point := .operation operation request } := by
  simp only [sysCmdHandler, testing, holds, if_true]

/-- A test that does not find its operation goes on to the next one. -/
theorem handler_other {system : System} {tested : Recover}
    (testing : system.point = .recoverTest tested)
    (other : ∀ operation request, system.recover = some (operation, request) → operation ≠ tested)
    (checkPass : Bool) :
    sysCmdHandler checkPass system = { system with point := afterTest tested } := by
  simp only [sysCmdHandler, testing]
  split
  case h_1 held request holds => rw [if_neg (other held request holds)]
  case h_2 => rfl

/-- An operation is made. -/
theorem handler_operation {system : System} {operation : Recover} {request : Nat}
    (making : system.point = .operation operation request) (checkPass : Bool) :
    sysCmdHandler checkPass system =
      { system with executed := request :: system.executed, point := .clearRecover } := by
  simp only [sysCmdHandler, making]

/-- `recover` is cleared. -/
theorem handler_clear {system : System} (clearing : system.point = .clearRecover)
    (checkPass : Bool) :
    sysCmdHandler checkPass system = { system with recover := none, point := .upgradeTest } := by
  simp only [sysCmdHandler, clearing]

/-- The test for a new firmware. -/
theorem handler_upgrade {system : System} (testing : system.point = .upgradeTest)
    (checkPass : Bool) :
    sysCmdHandler checkPass system =
      { system with point := if checkPass then .restarted else .resetTest } := by
  simp only [sysCmdHandler, testing]

/-- The test of `reset`. -/
theorem handler_reset {system : System} (testing : system.point = .resetTest)
    (checkPass : Bool) :
    sysCmdHandler checkPass system =
      { system with point := if system.reset then .restarted else .clearValid } := by
  simp only [sysCmdHandler, testing]

/-- `valid` is cleared. -/
theorem handler_valid {system : System} (clearing : system.point = .clearValid)
    (checkPass : Bool) :
    sysCmdHandler checkPass system = { system with valid := false, point := .idle } := by
  simp only [sysCmdHandler, clearing]

/-- A new request was not executed. -/
theorem Numbered.fresh {system : System} (numbered : Numbered system) :
    system.accepted ∉ system.executed := fun member =>
  absurd (numbered.known _ member) (lt_irrefl _)

/-- The handler goes to a point where it neither makes an operation nor has made one. -/
theorem Numbered.move {system : System} (numbered : Numbered system) {point : Point}
    (leaves : system.point ≠ .clearRecover)
    (other : ∀ operation request, point = .operation operation request →
      system.recover = some (operation, request)) :
    Numbered { system with point := point } where
  nodup := numbered.nodup
  known := numbered.known
  held := by
    intro operation request held
    obtain ⟨known, executed⟩ := numbered.held operation request held
    exact ⟨known, fun member => absurd (executed member) leaves⟩
  found := by
    intro operation request found
    obtain ⟨known, executed⟩ := numbered.held operation request (other operation request found)
    exact ⟨known, fun member => leaves (executed member)⟩

/-- A test that does not find its operation goes on to a test or to clearing. -/
theorem after_test (tested : Recover) :
    (∃ next, afterTest tested = .recoverTest next ∧ next.value = tested.value + 1) ∨
      (afterTest tested = .clearRecover ∧ tested.value = 4) := by
  cases tested with
  | restoreToFactory => exact .inl ⟨_, rfl, rfl⟩
  | saveToFactory => exact .inl ⟨_, rfl, rfl⟩
  | restoreToDefault => exact .inl ⟨_, rfl, rfl⟩
  | saveToBackup => exact .inr ⟨rfl, rfl⟩

/-- Such a test does not make an operation. -/
theorem after_test_operation (tested operation : Recover) (request : Nat) :
    afterTest tested ≠ .operation operation request := by
  cases tested <;> simp [afterTest, Recover.next]

/-- A step of the handler keeps the numbers in order. -/
theorem handler_numbered {system : System} (checkPass : Bool) (numbered : Numbered system) :
    Numbered (sysCmdHandler checkPass system) := by
  unfold sysCmdHandler
  split
  case h_1 idle =>
    split
    · exact numbered.move (by simp [idle]) (by simp)
    · exact numbered
  case h_2 tested testing =>
    split
    case h_1 held request holds =>
      split
      case isTrue same =>
        refine numbered.move (by simp [testing]) ?_
        intro operation found isFound
        cases isFound
        rw [holds, same]
      case isFalse other =>
        refine numbered.move (by simp [testing]) ?_
        exact fun operation found isFound => absurd isFound (after_test_operation _ _ _)
    case h_2 empty =>
      refine numbered.move (by simp [testing]) ?_
      exact fun operation found isFound => absurd isFound (after_test_operation _ _ _)
  case h_3 operation request making =>
    obtain ⟨known, missing⟩ := numbered.found operation request making
    constructor
    · exact List.nodup_cons.mpr ⟨missing, numbered.nodup⟩
    · intro other member
      rcases List.mem_cons.mp member with rfl | member
      · exact known
      · exact numbered.known other member
    · exact fun held other holds => ⟨(numbered.held held other holds).1, fun _ => rfl⟩
    · exact fun _ _ found => absurd found (by simp)
  case h_4 clearing =>
    exact ⟨numbered.nodup, numbered.known, fun _ _ held => absurd held (by simp),
      fun _ _ found => absurd found (by simp)⟩
  case h_5 testing =>
    refine numbered.move (by simp [testing]) ?_
    split <;> simp
  case h_6 testing =>
    refine numbered.move (by simp [testing]) ?_
    split <;> simp
  case h_7 clearing =>
    have moved := @Numbered.move system numbered .idle (by simp [clearing]) (by simp)
    exact ⟨moved.nodup, moved.known, moved.held, moved.found⟩
  case h_8 => exact numbered

/-- Every step keeps the numbers in order. -/
theorem step_numbered (system : System) (event : Event) (numbered : Numbered system) :
    Numbered (step system event) := by
  by_cases restarted : system.point = .restarted
  · rw [step_restarted restarted]
    exact numbered
  · cases event with
    | storeRecover operation =>
      rw [step_recover restarted]
      constructor
      · exact numbered.nodup
      · exact fun request member => (numbered.known request member).trans (Nat.lt_succ_self _)
      · intro held request holds
        cases holds
        exact ⟨Nat.lt_succ_self _, fun member => absurd member numbered.fresh⟩
      · intro making request found
        obtain ⟨known, missing⟩ := numbered.found making request found
        exact ⟨known.trans (Nat.lt_succ_self _), missing⟩
    | storeReset =>
      rw [step_reset restarted]
      exact ⟨numbered.nodup, numbered.known, numbered.held, numbered.found⟩
    | storeValid =>
      obtain ⟨valid, storing, stored⟩ := step_valid system
      rw [stored]
      exact ⟨numbered.nodup, numbered.known, numbered.held, numbered.found⟩
    | handler checkPass =>
      rw [step_handler restarted]
      exact handler_numbered checkPass numbered

/-- In every run, careful or not, no request is executed twice. -/
theorem executed_once (events : List Event) : (run step boot events).executed.Nodup := by
  have initial : Numbered boot :=
    ⟨List.nodup_nil, by simp [boot], by simp [boot], by simp [boot]⟩
  exact (run_invariant step step_numbered boot initial events).nodup

/-- The handler comes to a test in a run before it comes to the operations after it. -/
theorem ahead_test {operation tested : Recover} (order : tested.value ≤ operation.value) :
    Ahead operation (.recoverTest tested) := .inr ⟨tested, rfl, order⟩

/-- The handler is ahead of an operation at a test only if it tests for one before it. -/
theorem ahead_recover_test {operation tested : Recover} :
    Ahead operation (.recoverTest tested) ↔ tested.value ≤ operation.value := by
  constructor
  · rintro (idle | ⟨other, same, order⟩)
    · cases idle
    · cases same
      exact order
  · exact ahead_test

/-- Operations of one number are the same. -/
theorem value_injective {one two : Recover} (same : one.value = two.value) : one = two := by
  cases one <;> cases two <;> first | rfl | cases same

/-- What a request waits for where `recover` holds it. -/
def Waits (system : System) (operation : Recover) (request : Nat) : Prop :=
  Ahead operation system.point ∨ system.point = .operation operation request ∨
    (system.reset = true ∧ (system.point = .upgradeTest ∨ system.point = .resetTest)) ∨
    system.point = .restarted

/-- The handler goes from a point to another, and each request that waits at the one waits
at the other. -/
theorem Kept.move {system : System} (kept : Kept system) {point : Point}
    (numbered : Numbered { system with point := point }) (running : system.point ≠ .restarted)
    (waits : ∀ operation request, system.recover = some (operation, request) →
      request ∉ system.executed → Waits system operation request →
      Waits { system with point := point } operation request)
    (found : ∀ operation request, point = .operation operation request →
      system.recover = some (operation, request))
    (cleared : point = .clearValid → system.reset = false) :
    Kept { system with point := point } where
  numbered := numbered
  holds := fun operation request held missing =>
    waits operation request held missing (kept.holds operation request held missing)
  found := found
  only := fun reset _ => kept.only reset running
  cleared := cleared

/-- A test that does not find its operation leaves the others waiting. -/
theorem Kept.pass {system : System} (kept : Kept system) {tested : Recover}
    (testing : system.point = .recoverTest tested)
    (other : ∀ operation request, system.recover = some (operation, request) → operation ≠ tested)
    (numbered : Numbered { system with point := afterTest tested }) :
    Kept { system with point := afterTest tested } := by
  refine kept.move numbered (by simp [testing]) ?_ ?_ ?_
  · intro operation request held missing waits
    have ahead : tested.value ≤ operation.value := by
      rcases waits with ahead | making | ⟨-, late | late⟩ | restarted
      · rw [testing] at ahead
        exact ahead_recover_test.mp ahead
      · simp [testing] at making
      · simp [testing] at late
      · simp [testing] at late
      · simp [testing] at restarted
    have later : tested.value < operation.value :=
      lt_of_le_of_ne ahead fun same => other operation request held (value_injective same).symm
    rcases after_test tested with ⟨next, isNext, following⟩ | ⟨-, last⟩
    · refine .inl ?_
      change Ahead operation (afterTest tested)
      rw [isNext]
      exact ahead_test (by omega)
    · have most : operation.value ≤ 4 := by cases operation <;> decide
      omega
  · exact fun operation request found => absurd found (after_test_operation _ _ _)
  · intro clearing
    cases tested <;> simp [afterTest, Recover.next] at clearing

/-- A request that waits where only a point of no return is left waits for a restart. -/
theorem Kept.late {system : System} (kept : Kept system) {operation : Recover} {request : Nat}
    (held : system.recover = some (operation, request)) (missing : request ∉ system.executed)
    (notIdle : system.point ≠ .idle) (notTest : ∀ tested, system.point ≠ .recoverTest tested)
    (notMaking : system.point ≠ .operation operation request)
    (running : system.point ≠ .restarted) :
    system.reset = true ∧ (system.point = .upgradeTest ∨ system.point = .resetTest) := by
  rcases kept.holds operation request held missing with ahead | making | late | restarted
  · rcases ahead with idle | ⟨tested, testing, -⟩
    · exact absurd idle notIdle
    · exact absurd testing (notTest tested)
  · exact absurd making notMaking
  · exact late
  · exact absurd restarted running

/-- A test keeps the requests waiting. -/
theorem test_kept {system : System} {tested : Recover} (checkPass : Bool)
    (testing : system.point = .recoverTest tested) (kept : Kept system) :
    Kept (sysCmdHandler checkPass system) := by
  have numbered := handler_numbered checkPass kept.numbered
  by_cases found : ∃ request, system.recover = some (tested, request)
  · obtain ⟨request, holds⟩ := found
    rw [handler_found testing holds] at numbered ⊢
    refine kept.move numbered (by simp [testing]) ?_ ?_ (by simp)
    · intro operation other held missing waits
      rw [holds] at held
      cases held
      exact .inr (.inl rfl)
    · intro operation other isFound
      cases isFound
      exact holds
  · have other : ∀ operation request, system.recover = some (operation, request) →
        operation ≠ tested := by
      rintro operation request held rfl
      exact found ⟨request, held⟩
    rw [handler_other testing other] at numbered ⊢
    exact kept.pass testing other numbered

/-- A step of the handler keeps the requests waiting. -/
theorem handler_kept {system : System} (checkPass : Bool) (kept : Kept system) :
    Kept (sysCmdHandler checkPass system) := by
  have numbered := handler_numbered checkPass kept.numbered
  cases point : system.point with
  | idle =>
    by_cases valid : system.valid = true
    · rw [handler_start point valid] at numbered ⊢
      refine kept.move numbered (by simp [point]) ?_ (by simp) (by simp)
      intro operation request held missing waits
      refine .inl (ahead_test ?_)
      cases operation <;> decide
    · have still : sysCmdHandler checkPass system = system := by
        simp [sysCmdHandler, point, valid]
      rw [still]
      exact kept
  | recoverTest tested => exact test_kept checkPass point kept
  | operation operation request =>
    rw [handler_operation point] at numbered ⊢
    have holds := kept.found operation request point
    refine ⟨numbered, ?_, by simp, ?_, by simp⟩
    · intro other number held missing
      rw [holds] at held
      cases held
      exact absurd List.mem_cons_self missing
    · intro reset _ number known missing
      refine kept.only reset (by simp [point]) number known fun member => ?_
      exact missing (List.mem_cons_of_mem _ member)
  | clearRecover =>
    rw [handler_clear point] at numbered ⊢
    refine ⟨numbered, by simp, by simp, ?_, by simp⟩
    intro reset _ number known missing
    obtain ⟨operation, held⟩ := kept.only reset (by simp [point]) number known missing
    have late := kept.late held missing (by simp [point]) (by simp [point]) (by simp [point])
      (by simp [point])
    exact absurd (late.1.symm.trans reset) (by simp)
  | upgradeTest =>
    rw [handler_upgrade point] at numbered ⊢
    refine kept.move numbered (by simp [point]) ?_ ?_ ?_
    · intro operation request held missing waits
      have late := kept.late held missing (by simp [point]) (by simp [point]) (by simp [point])
        (by simp [point])
      cases checkPass with
      | true => exact .inr (.inr (.inr rfl))
      | false => exact .inr (.inr (.inl ⟨late.1, .inr rfl⟩))
    · intro operation request found
      cases checkPass <;> simp at found
    · intro clearing
      cases checkPass <;> simp at clearing
  | resetTest =>
    rw [handler_reset point] at numbered ⊢
    refine kept.move numbered (by simp [point]) ?_ ?_ ?_
    · intro operation request held missing waits
      have late := kept.late held missing (by simp [point]) (by simp [point]) (by simp [point])
        (by simp [point])
      exact .inr (.inr (.inr (if_pos late.1)))
    · intro operation request found
      split at found <;> cases found
    · intro clearing
      split at clearing
      · cases clearing
      case isFalse calm => exact Bool.eq_false_iff.mpr calm
  | clearValid =>
    rw [handler_valid point] at numbered ⊢
    refine ⟨numbered, fun _ _ _ _ => .inl (.inl rfl), by simp, ?_, by simp⟩
    exact fun reset _ => kept.only reset (by simp [point])
  | restarted =>
    have still : sysCmdHandler checkPass system = system := by
      simp only [sysCmdHandler, point]
    rw [still]
    exact kept

/-- A careful step keeps the requests waiting. -/
theorem step_kept (system : System) (event : Event) (kept : Kept system)
    (careful : Careful system event) : Kept (step system event) := by
  have numbered := step_numbered system event kept.numbered
  by_cases restarted : system.point = .restarted
  · rw [step_restarted restarted]
    exact kept
  · cases event with
    | storeRecover operation =>
      rw [step_recover restarted] at numbered ⊢
      have careful := careful.resolve_left restarted
      refine ⟨numbered, ?_, ?_, ?_, kept.cleared⟩
      · intro held request holds missing
        cases holds
        rcases careful with ⟨ahead, -⟩ | late
        · exact .inl ahead
        · exact .inr (.inr (.inl late))
      · intro making request found
        rcases careful with ⟨idle | ⟨tested, testing, -⟩, -⟩ | ⟨-, late | late⟩
        · exact absurd (idle.symm.trans found) (by simp)
        · exact absurd (testing.symm.trans found) (by simp)
        · exact absurd (late.symm.trans found) (by simp)
        · exact absurd (late.symm.trans found) (by simp)
      · intro reset _ request known missing
        have all : AllExecuted system := by
          rcases careful with ⟨-, asked | all⟩ | ⟨asked, -⟩
          · exact absurd (asked.symm.trans reset) (by simp)
          · exact all
          · exact absurd (asked.symm.trans reset) (by simp)
        rcases Nat.lt_succ_iff_lt_or_eq.mp known with before | same
        · exact absurd (all request before) missing
        · exact ⟨operation, by rw [same]⟩
    | storeReset =>
      rw [step_reset restarted] at numbered ⊢
      refine ⟨numbered, ?_, kept.found, fun reset => absurd reset (by simp), ?_⟩
      · intro operation request held missing
        refine (kept.holds operation request held missing).imp_right ?_
        exact Or.imp_right (Or.imp_left fun late => ⟨rfl, late.2⟩)
      · exact fun clearing => absurd clearing careful
    | storeValid =>
      obtain ⟨valid, storing, stored⟩ := step_valid system
      rw [stored] at numbered ⊢
      exact ⟨numbered, kept.holds, kept.found, kept.only, kept.cleared⟩
    | handler checkPass =>
      rw [step_handler restarted]
      exact handler_kept checkPass kept

/-- Where the requests wait, each step is what it should be. -/
theorem Kept.safe {system : System} (kept : Kept system) (event : Event) : Safe system event where
  once := (step_numbered system event kept.numbered).nodup
  recover := by
    intro checkPass _ clearing operation request held
    by_contra missing
    have late := kept.late held missing (by simp [clearing]) (by simp [clearing])
      (by simp [clearing]) (by simp [clearing])
    simp [clearing] at late
  valid := by
    intro checkPass _ clearing
    have reset := kept.cleared clearing
    refine ⟨reset, fun request known => ?_⟩
    by_contra missing
    obtain ⟨operation, held⟩ := kept.only reset (by simp [clearing]) request known missing
    have late := kept.late held missing (by simp [clearing]) (by simp [clearing])
      (by simp [clearing]) (by simp [clearing])
    simp [clearing] at late

/-- Where the requests wait, whatever comes next is what it should be. -/
theorem Kept.sound {system : System} (kept : Kept system) : Sound system := by
  intro more quiet
  induction more generalizing system with
  | nil => exact True.intro
  | cons event rest inductionHypothesis =>
    refine ⟨kept.safe event, inductionHypothesis (step_kept system event kept ?_) ?_⟩
    · have quietEvent := quiet event List.mem_cons_self
      cases event with
      | storeRecover operation => exact absurd quietEvent id
      | storeReset => exact absurd quietEvent id
      | storeValid => exact True.intro
      | handler checkPass => exact True.intro
    · exact fun other member => quiet other (List.mem_cons_of_mem _ member)

/-- What is sound stays so after an event that is not the store of a value. -/
theorem Sound.next {system : System} (sound : Sound system) (event : Event) (quiet : Quiet event) :
    Sound (step system event) := by
  intro more quietMore
  have whole := sound (event :: more) fun other member => by
    rcases List.mem_cons.mp member with rfl | member
    · exact quiet
    · exact quietMore other member
  exact whole.2

/-- What is sound makes its next step as it should. -/
theorem Sound.safe {system : System} (sound : Sound system) (event : Event) (quiet : Quiet event) :
    Safe system event := (sound [event] (by simpa using quiet)).1

/-- What is sound stays so after a step of the handler that finds no new firmware. -/
theorem Sound.handler {system : System} (sound : Sound system)
    (running : system.point ≠ .restarted) : Sound (sysCmdHandler false system) := by
  rw [← step_handler running]
  exact sound.next (.handler false) True.intro

/-- What is sound stays so when a run of the handler starts. -/
theorem Sound.start {system : System} (sound : Sound system) (idle : system.point = .idle)
    (valid : system.valid = true) :
    Sound { system with point := .recoverTest .restoreToFactory } := by
  rw [← handler_start idle valid false]
  exact sound.handler (by simp [idle])

/-- From where `valid` is about to be cleared, all requests were executed. -/
theorem Sound.clear_valid {system : System} (sound : Sound system)
    (clearing : system.point = .clearValid) : system.reset = false ∧ AllExecuted system :=
  (sound.safe (.handler false) True.intro).valid false rfl clearing

/-- At the test of `reset` all requests were executed, unless a restart is asked for. -/
theorem Sound.reset_test {system : System} (sound : Sound system)
    (testing : system.point = .resetTest) : system.reset = true ∨ AllExecuted system := by
  cases reset : system.reset with
  | true => exact .inl rfl
  | false =>
    have next := sound.handler (by simp [testing])
    rw [handler_reset testing, reset] at next
    exact .inr (next.clear_valid rfl).2

/-- At the test for a new firmware all requests were executed, unless a restart is asked
for. -/
theorem Sound.upgrade_test {system : System} (sound : Sound system)
    (testing : system.point = .upgradeTest) : system.reset = true ∨ AllExecuted system := by
  have next := sound.handler (by simp [testing])
  rw [handler_upgrade testing] at next
  exact next.reset_test rfl

/-- Where `recover` is about to be cleared the request that it holds was executed, and all
others were, unless a restart is asked for. -/
theorem Sound.clear_recover {system : System} (sound : Sound system)
    (clearing : system.point = .clearRecover) :
    (∀ operation request, system.recover = some (operation, request) →
      request ∈ system.executed) ∧ (system.reset = true ∨ AllExecuted system) := by
  have safe := sound.safe (.handler false) True.intro
  refine ⟨safe.recover false rfl clearing, ?_⟩
  have next := sound.handler (by simp [clearing])
  rw [handler_clear clearing] at next
  exact next.upgrade_test rfl

/-- Where an operation is about to be made for a request, all others were executed, as
above. -/
theorem Sound.making {system : System} (sound : Sound system) {operation : Recover}
    {request : Nat} (making : system.point = .operation operation request) :
    (∀ held other, system.recover = some (held, other) →
      other = request ∨ other ∈ system.executed) ∧
      (system.reset = true ∨ ∀ other < system.accepted,
        other = request ∨ other ∈ system.executed) := by
  have next := sound.handler (by simp [making])
  rw [handler_operation making] at next
  obtain ⟨held, all⟩ := next.clear_recover rfl
  refine ⟨fun operation other holds => List.mem_cons.mp (held operation other holds), ?_⟩
  exact all.imp_right fun every other known => List.mem_cons.mp (every other known)

/-- At a test the request that `recover` holds was executed or will be found, and all
others were executed, as above. -/
structure Finds (system : System) (tested : Recover) : Prop where
  holds : ∀ operation request, system.recover = some (operation, request) →
    request ∈ system.executed ∨ tested.value ≤ operation.value
  others : system.reset = true ∨ ∀ request < system.accepted,
    request ∈ system.executed ∨ ∃ operation, system.recover = some (operation, request)

/-- A test that finds its operation. -/
theorem Sound.test_found {system : System} (sound : Sound system) {tested : Recover}
    {request : Nat} (testing : system.point = .recoverTest tested)
    (holds : system.recover = some (tested, request)) : Finds system tested := by
  have next := sound.handler (by simp [testing])
  rw [handler_found testing holds] at next
  obtain ⟨-, all⟩ := next.making rfl
  constructor
  · intro operation other held
    rw [holds] at held
    cases held
    exact .inr le_rfl
  · refine all.imp_right fun every other known => ?_
    rcases every other known with rfl | member
    · exact .inr ⟨tested, holds⟩
    · exact .inl member

/-- A test that does not find its operation, with what holds at the next one. -/
theorem Sound.test_other {system : System} (sound : Sound system) {tested : Recover}
    (testing : system.point = .recoverTest tested)
    (other : ∀ operation request, system.recover = some (operation, request) → operation ≠ tested)
    (following : ∀ later : System, Sound later → ∀ next, later.point = .recoverTest next →
      next.value = tested.value + 1 → Finds later next) : Finds system tested := by
  have next := sound.handler (by simp [testing])
  rw [handler_other testing other] at next
  rcases after_test tested with ⟨later, isLater, order⟩ | ⟨clearing, -⟩
  · obtain ⟨holds, others⟩ := following _ next later isLater order
    refine ⟨fun operation request held => (holds operation request held).imp_right ?_, others⟩
    intro above
    omega
  · obtain ⟨holds, all⟩ := next.clear_recover clearing
    refine ⟨fun operation request held => .inl (holds operation request held), ?_⟩
    exact all.imp_right fun every request known => .inl (every request known)

/-- What is sound finds the request at a test that `recover` holds. -/
theorem Sound.finds {system : System} (sound : Sound system) {tested : Recover}
    (testing : system.point = .recoverTest tested) : Finds system tested := by
  induction left : 4 - tested.value generalizing system tested with
  | zero =>
    by_cases found : ∃ request, system.recover = some (tested, request)
    · obtain ⟨request, holds⟩ := found
      exact sound.test_found testing holds
    · refine sound.test_other testing ?_ ?_
      · rintro operation request held rfl
        exact found ⟨request, held⟩
      · intro later _ next _ order
        have most : next.value ≤ 4 := by cases next <;> decide
        omega
  | succ fewer inductionHypothesis =>
    by_cases found : ∃ request, system.recover = some (tested, request)
    · obtain ⟨request, holds⟩ := found
      exact sound.test_found testing holds
    · refine sound.test_other testing ?_ ?_
      · rintro operation request held rfl
        exact found ⟨request, held⟩
      · intro later laterSound next nextTest order
        exact inductionHypothesis laterSound nextTest (by omega)

/-- The value of `PR` was stored carefully if what follows is sound. -/
theorem needed_recover {system : System} {operation : Recover} (kept : Kept system)
    (sound : Sound (step system (.storeRecover operation))) :
    Careful system (.storeRecover operation) := by
  by_cases restarted : system.point = .restarted
  · exact .inl restarted
  · rw [step_recover restarted] at sound
    have fresh := kept.numbered.fresh
    have notAll : ¬ ∀ request < system.accepted + 1, request ∈ system.executed :=
      fun all => fresh (all _ (Nat.lt_succ_self _))
    have earlier : (∀ request < system.accepted + 1, request ∈ system.executed ∨
        ∃ held, some (operation, system.accepted) = some (held, request)) → AllExecuted system := by
      intro every request known
      rcases every request (known.trans (Nat.lt_succ_self _)) with member | ⟨held, same⟩
      · exact member
      · cases same
        exact absurd known (lt_irrefl _)
    refine .inr ?_
    cases point : system.point with
    | idle =>
      have started := sound.next .storeValid True.intro
      have stored : step
          { system with
            recover := some (operation, system.accepted)
            accepted := system.accepted + 1
            storing := system.storing + 1 } .storeValid =
          { system with
            recover := some (operation, system.accepted)
            accepted := system.accepted + 1
            storing := system.storing
            valid := true } := by
        simp [step, point]
      rw [stored] at started
      have running := started.start point rfl
      exact .inl ⟨.inl rfl, (running.finds rfl).others.imp_right earlier⟩
    | recoverTest tested =>
      obtain ⟨holds, others⟩ := sound.finds point
      refine .inl ⟨ahead_test ?_, others.imp_right earlier⟩
      exact (holds operation system.accepted rfl).resolve_left fresh
    | operation made request =>
      obtain ⟨known, -⟩ := kept.numbered.found made request point
      rcases (sound.making point).1 operation system.accepted rfl with same | member
      · exact absurd known (by omega)
      · exact absurd member fresh
    | clearRecover =>
      exact absurd ((sound.clear_recover point).1 operation system.accepted rfl) fresh
    | upgradeTest =>
      exact .inr ⟨(sound.upgrade_test point).resolve_right notAll, .inl rfl⟩
    | resetTest =>
      exact .inr ⟨(sound.reset_test point).resolve_right notAll, .inr rfl⟩
    | clearValid => exact absurd (sound.clear_valid point).2 notAll
    | restarted => exact absurd point restarted

/-- A value was stored carefully if what follows is sound. -/
theorem step_needed (system : System) (event : Event) (kept : Kept system)
    (sound : Sound (step system event)) : Careful system event := by
  cases event with
  | storeRecover operation => exact needed_recover kept sound
  | storeReset =>
    intro clearing
    rw [step_reset (by simp [clearing])] at sound
    exact absurd (sound.clear_valid clearing).1 (by simp)
  | storeValid => exact True.intro
  | handler checkPass => exact True.intro

/-- At the start no request waits. -/
theorem boot_kept : Kept boot :=
  ⟨⟨List.nodup_nil, by simp [boot], by simp [boot], by simp [boot]⟩, by simp [boot],
    by simp [boot], by simp [boot], by simp [boot]⟩

/-- In every order of stores and steps of the handler, all values are stored carefully
exactly if, after each part of it, whatever the handler and the commands that have stored
their values do next is what it should be. -/
theorem sys_cmd_iff (events : List Event) :
    Along step Careful boot events ↔
      ∀ first, first <+: events → Sound (run step boot first) :=
  along_determines step (fun _ kept => kept.sound) step_kept step_needed boot boot_kept events

/-- A second `PR` comes while the operation of the first is made: `recover` is cleared
with it. -/
theorem second_request_lost : ¬ ∀ events : List Event, Along step Safe boot events := by
  intro always
  have safe := always [.storeRecover .restoreToFactory, .storeValid, .handler false,
    .handler false, .storeRecover .saveToBackup, .storeValid, .handler false, .handler false]
  have cleared := safe.2.2.2.2.2.2.2.1.recover false rfl rfl .saveToBackup 1 rfl
  exact absurd cleared (by decide)

end Pyrometer.SystemRequests
