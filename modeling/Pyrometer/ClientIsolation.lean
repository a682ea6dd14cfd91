import Pyrometer.ByteMemory
import Pyrometer.Runs

/-!
# The client threads of `tcp_server.c`

Every client has a thread that waits for a segment, copies it into
`server_rx_buffer`, writes its own number into `tcp_port` and then, for a client
of the work port, runs `proto_process` on the buffer inside a critical section.
The reply goes to the client that `tcp_port` names at that moment. A client of
port 80 gives its own segment to `process_http_request` instead. Buffer and port
are shared by all threads, and threads may be preempted between the three steps.

The three steps are atomic here and interleave in any order. What `proto_process`
leaves in the receive buffer, which it rewrites in place, and what the rest of the
program does to the memory behind the buffer is arbitrary. A slot that is given to
a new connection counts as a new client. Whether a reply is really sent also
depends on the network; where it would go does not.
-/

namespace Pyrometer.ClientIsolation

open ByteMemory Runs

/-- `MAX_CLIENT_COUNT`, the slots of one server. -/
abbrev maxClientCount : Nat := 4

/-- `PROT_MAX_PKT_LEN`, the size of `server_rx_buffer`. -/
def protMaxPktLen : Nat := 1056

/-- A slot of the work server or of the camera server. -/
inductive Client where
  | work (slot : Fin maxClientCount)
  | camera (slot : Fin maxClientCount)
  deriving DecidableEq

/-- The number of a client, from `WORK_CLIENT_BASE` and `CAMERA_CLIENT_BASE`. -/
def Client.num : Client → Nat
  | .work slot => 3 + slot
  | .camera slot => 7 + slot

/-- Where the thread of a client is, with the segment it holds. -/
inductive Progress where
  | waitData
  | received (data : List Byte)
  | copied (data : List Byte)
  | assigned (data : List Byte)
  deriving DecidableEq

/-- The segment a thread holds. -/
def Progress.data? : Progress → Option (List Byte)
  | .waitData => none
  | .received data => some data
  | .copied data => some data
  | .assigned data => some data

/-- The thread has copied its segment and not yet processed it. -/
def Progress.midway : Progress → Bool
  | .copied _ => true
  | .assigned _ => true
  | _ => false

/-- The thread has set the port and not yet processed its segment. -/
def Progress.ready : Progress → Bool
  | .assigned _ => true
  | _ => false

/-- Bytes that came from, or are answered to, one connection of one slot. -/
structure Message where
  num : Nat
  connection : Nat
  bytes : List Byte
  deriving DecidableEq

/-- The shared variables and the threads. The memory begins at `server_rx_buffer`.
`connections` counts the connections each slot has had, `sent` is what the clients
sent, and `processed` what was processed, with the connection the reply goes to. -/
structure Server where
  rxBuffer : Mem
  channelIdx : Nat
  progress : Client → Progress
  connections : Nat → Nat
  sent : List Message
  processed : List Message

/-- The server before its first connection. -/
def Server.start (rxBuffer : Mem) : Server :=
  ⟨rxBuffer, 0, fun _ => .waitData, fun _ => 0, [], []⟩

/-- One step of a thread or of its surroundings. -/
inductive Event where
  | connect (client : Client)
  | receive (client : Client) (data : List Byte)
  | copy (client : Client)
  | assign (client : Client)
  | process (client : Client) (left : Mem)
  | elsewhere (behind : Mem)

/-- One thread moves on. -/
def Server.at (server : Server) (client : Client) (next : Progress) : Client → Progress :=
  Function.update server.progress client next

section

variable (http : Client → Bool)

/-- One step. A step that the thread is not ready for does nothing. -/
def step (server : Server) : Event → Server
  | .connect client =>
      match server.progress client with
      | .waitData => { server with
          connections := Function.update server.connections client.num
            (server.connections client.num + 1) }
      | _ => server
  | .receive client data =>
      match server.progress client with
      | .waitData => { server with
          progress := server.at client (.received data)
          sent := server.sent ++ [⟨client.num, server.connections client.num, data⟩] }
      | _ => server
  | .copy client =>
      match server.progress client with
      | .received data => { server with
          rxBuffer := overlay server.rxBuffer (ofList data) 0 data.length
          progress := server.at client (.copied data) }
      | _ => server
  | .assign client =>
      match server.progress client with
      | .copied data => { server with
          channelIdx := client.num
          progress := server.at client (.assigned data) }
      | _ => server
  | .process client left =>
      match server.progress client with
      | .assigned data =>
          if http client then { server with
            progress := server.at client .waitData
            processed := server.processed ++
              [⟨client.num, server.connections client.num, data⟩] }
          else { server with
            rxBuffer := left
            progress := server.at client .waitData
            processed := server.processed ++
              [⟨server.channelIdx, server.connections server.channelIdx,
                toList server.rxBuffer 0 data.length⟩] }
      | _ => server
  | .elsewhere behind => { server with
      rxBuffer := overlay behind server.rxBuffer 0 protMaxPktLen }

/-- Every request processed was sent by the client that its reply goes to. -/
def Isolated (server : Server) : Prop :=
  ∀ message ∈ server.processed, message ∈ server.sent

/-- No other thread is disturbed: a copied segment fits the buffer and is copied
while no other client of the work port is between its copy and its processing, and
the port is assigned while no other such client has assigned it for itself. -/
def Undisturbed (server : Server) : Event → Prop
  | .copy client =>
      (∀ data, server.progress client = .received data → data.length ≤ protMaxPktLen) ∧
        ∀ other, other ≠ client → http other = false → (server.progress other).midway = false
  | .assign client =>
      ∀ other, other ≠ client → http other = false → (server.progress other).ready = false
  | _ => True

/-- Different clients have different numbers. -/
theorem num_injective {left right : Client} (same : left.num = right.num) : left = right := by
  cases left with
  | work one =>
    cases right with
    | work two =>
      simp only [Client.num] at same
      exact congrArg Client.work (Fin.ext (by omega))
    | camera two =>
      have bound : one.val < 4 := one.isLt
      simp only [Client.num] at same
      omega
  | camera one =>
    cases right with
    | work two =>
      have bound : two.val < 4 := two.isLt
      simp only [Client.num] at same
      omega
    | camera two =>
      simp only [Client.num] at same
      exact congrArg Client.camera (Fin.ext (by omega))

/-- What holds between the steps of an undisturbed run: each thread holds a segment
its client sent, at most one client of the work port is midway, the buffer holds its
segment, and once it has assigned the port, the port names it. -/
structure Sound (server : Server) : Prop where
  held : ∀ client data, (server.progress client).data? = some data →
    ⟨client.num, server.connections client.num, data⟩ ∈ server.sent
  alone : ∀ client other, http client = false → http other = false →
    (server.progress client).midway = true → (server.progress other).midway = true →
      client = other
  buffered : ∀ client data, http client = false → (server.progress client).midway = true →
    (server.progress client).data? = some data →
      data.length ≤ protMaxPktLen ∧ toList server.rxBuffer 0 data.length = data
  named : ∀ client, http client = false → (server.progress client).ready = true →
    server.channelIdx = client.num
  isolated : Isolated server

/-- Nothing is midway at the start. -/
theorem start_sound (rxBuffer : Mem) : Sound http (Server.start rxBuffer) where
  held _ _ holds := absurd holds (by simp [Server.start, Progress.data?])
  alone _ _ _ _ midway := absurd midway (by simp [Server.start, Progress.midway])
  buffered _ _ _ midway := absurd midway (by simp [Server.start, Progress.midway])
  named _ _ ready := absurd ready (by simp [Server.start, Progress.ready])
  isolated _ member := absurd member (by simp [Server.start])

/-- A ready thread is midway. -/
theorem ready_midway {progress : Progress} (ready : progress.ready = true) :
    progress.midway = true := by
  cases progress with
  | assigned data => rfl
  | _ => cases ready

/-- The thread that moved on stands where it moved to. -/
@[simp] theorem at_self (server : Server) (client : Client) (next : Progress) :
    server.at client next client = next := Function.update_self ..

/-- Every other thread stands where it was. -/
theorem at_other (server : Server) {client other : Client} (next : Progress)
    (differ : other ≠ client) : server.at client next other = server.progress other :=
  Function.update_of_ne differ ..

/-- A new connection in a slot whose thread holds nothing keeps the invariant. -/
theorem connect_sound (server : Server) (client : Client) (sound : Sound http server) :
    Sound http (step http server (.connect client)) := by
  rw [step]
  split
  · rename_i waiting
    refine ⟨fun other data holds => ?_, sound.alone, sound.buffered, sound.named, sound.isolated⟩
    have differ : other.num ≠ client.num := by
      intro same
      rw [num_injective same, waiting] at holds
      cases holds
    simpa [Function.update_of_ne differ] using sound.held other data holds
  · exact sound

/-- A received segment keeps the invariant: it is held by a thread that is not yet
midway. -/
theorem receive_sound (server : Server) (client : Client) (data : List Byte)
    (sound : Sound http server) : Sound http (step http server (.receive client data)) := by
  rw [step]
  split
  · have unmoved : ∀ other, (server.at client (.received data) other).midway = true →
        server.at client (.received data) other = server.progress other := by
      intro other midway
      refine at_other server _ (fun same => ?_)
      rw [same, at_self] at midway
      cases midway
    refine ⟨fun other held holds => ?_, fun one two first second left right => ?_,
      fun other held work midway holds => ?_, fun other work ready => ?_,
      fun message member => List.mem_append_left _ (sound.isolated message member)⟩
    · by_cases same : other = client
      · subst same
        simp only [at_self, Progress.data?, Option.some.injEq] at holds
        subst holds
        exact List.mem_append_right _ (by simp)
      · simp only [at_other server _ same] at holds
        exact List.mem_append_left _ (sound.held other held holds)
    · exact sound.alone one two first second (unmoved one left ▸ left) (unmoved two right ▸ right)
    · have same := unmoved other midway
      simp only [same] at midway holds
      exact sound.buffered other held work midway holds
    · have same := unmoved other (ready_midway ready)
      simp only [same] at ready
      exact sound.named other work ready
  · exact sound

/-- A copy that disturbs no other thread keeps the invariant: the only thread midway
is the one whose segment is now in the buffer. -/
theorem copy_sound (server : Server) (client : Client) (sound : Sound http server)
    (undisturbed : Undisturbed http server (.copy client)) :
    Sound http (step http server (.copy client)) := by
  rw [step]
  split
  · rename_i data holding
    obtain ⟨fits, others⟩ := undisturbed
    have mine : ∀ other, http other = false →
        (server.at client (.copied data) other).midway = true → other = client := by
      intro other work midway
      by_contra differ
      rw [at_other server _ differ, others other differ work] at midway
      cases midway
    refine ⟨fun other held holds => ?_, fun one two first second left right => ?_,
      fun other held work midway holds => ?_, fun other work ready => ?_, sound.isolated⟩
    · by_cases same : other = client
      · subst same
        simp only [at_self, Progress.data?, Option.some.injEq] at holds
        subst holds
        exact sound.held other data (by rw [holding]; rfl)
      · simp only [at_other server _ same] at holds
        exact sound.held other held holds
    · rw [mine one first left, mine two second right]
    · obtain rfl := mine other work midway
      simp only [at_self, Progress.data?, Option.some.injEq] at holds
      subst holds
      refine ⟨fits data holding, List.ext_getElem (by simp) (fun index low high => ?_)⟩
      simp [toList, overlay, ofList, high]
    · obtain rfl := mine other work (ready_midway ready)
      simp [Progress.ready] at ready
  · exact sound

/-- An assignment that disturbs no other thread keeps the invariant. -/
theorem assign_sound (server : Server) (client : Client) (sound : Sound http server)
    (undisturbed : Undisturbed http server (.assign client)) :
    Sound http (step http server (.assign client)) := by
  rw [step]
  split
  · rename_i data holding
    have same : ∀ other, (server.at client (.assigned data) other).data? =
        (server.progress other).data? ∧ (server.at client (.assigned data) other).midway =
        (server.progress other).midway := by
      intro other
      by_cases moved : other = client
      · subst moved
        rw [at_self, holding]
        exact ⟨rfl, rfl⟩
      · rw [at_other server _ moved]
        exact ⟨rfl, rfl⟩
    refine ⟨fun other held holds => ?_, fun one two first second left right => ?_,
      fun other held work midway holds => ?_, fun other work ready => ?_, sound.isolated⟩
    · exact sound.held other held ((same other).1 ▸ holds)
    · exact sound.alone one two first second ((same one).2 ▸ left) ((same two).2 ▸ right)
    · exact sound.buffered other held work ((same other).2 ▸ midway) ((same other).1 ▸ holds)
    · by_cases moved : other = client
      · rw [moved]
      · simp only [at_other server _ moved] at ready
        rw [undisturbed other moved work] at ready
        cases ready
  · exact sound

/-- Processing keeps the invariant: for the work port the buffer holds the thread's
own segment and the port names its client. -/
theorem process_sound (server : Server) (client : Client) (left : Mem)
    (sound : Sound http server) : Sound http (step http server (.process client left)) := by
  rw [step]
  split
  · rename_i data holding
    have holds : (server.progress client).data? = some data := by rw [holding]; rfl
    have midway : (server.progress client).midway = true := by rw [holding]; rfl
    have ready : (server.progress client).ready = true := by rw [holding]; rfl
    have sent := sound.held client data holds
    have unmoved : ∀ other held, (server.at client .waitData other).data? = some held →
        other ≠ client ∧ server.at client .waitData other = server.progress other := by
      intro other held has
      have differ : other ≠ client := by
        intro same
        rw [same, at_self] at has
        cases has
      exact ⟨differ, at_other server _ differ⟩
    have later : ∀ other, (server.at client .waitData other).midway = true →
        other ≠ client ∧ server.at client .waitData other = server.progress other := by
      intro other still
      have differ : other ≠ client := by
        intro same
        rw [same, at_self] at still
        cases still
      exact ⟨differ, at_other server _ differ⟩
    split
    · refine ⟨fun other held has => ?_, fun one two first second one' two' => ?_,
        fun other held work still has => ?_, fun other work still => ?_, fun message member => ?_⟩
      · exact sound.held other held ((unmoved other held has).2 ▸ has)
      · exact sound.alone one two first second ((later one one').2 ▸ one')
          ((later two two').2 ▸ two')
      · have same := (later other still).2
        simp only [same] at still has
        exact sound.buffered other held work still has
      · have same := (later other (ready_midway still)).2
        simp only [same] at still
        exact sound.named other work still
      · rcases List.mem_append.mp member with earlier | here
        · exact sound.isolated message earlier
        · rw [List.mem_singleton.mp here]
          exact sent
    · rename_i plain
      have work : http client = false := by simpa using plain
      have only : ∀ other, http other = false →
          (server.at client .waitData other).midway = true → False := by
        intro other second still
        obtain ⟨differ, same⟩ := later other still
        exact differ (sound.alone other client second work (same ▸ still) midway)
      refine ⟨fun other held has => ?_, fun one two first second one' _ => ?_,
        fun other held work' still _ => ?_, fun other work' still => ?_, fun message member => ?_⟩
      · exact sound.held other held ((unmoved other held has).2 ▸ has)
      · exact (only one first one').elim
      · exact (only other work' still).elim
      · exact (only other work' (ready_midway still)).elim
      · rcases List.mem_append.mp member with earlier | here
        · exact sound.isolated message earlier
        · rw [List.mem_singleton.mp here, sound.named client work ready,
            (sound.buffered client data work midway holds).2]
          exact sent
  · exact sound

/-- What happens behind the buffer keeps the invariant, since segments fit it. -/
theorem elsewhere_sound (server : Server) (behind : Mem) (sound : Sound http server) :
    Sound http (step http server (.elsewhere behind)) := by
  refine ⟨sound.held, sound.alone, fun client data work midway holds => ?_, sound.named,
    sound.isolated⟩
  obtain ⟨fits, inside⟩ := sound.buffered client data work midway holds
  refine ⟨fits, Eq.trans ?_ inside⟩
  refine List.map_congr_left (fun offset member => ?_)
  have below : offset < data.length := List.mem_range.mp member
  simp only [step, Nat.zero_add]
  rw [overlay_inside _ _ _ _ _ (Nat.zero_le _) (by omega), Nat.sub_zero]

/-- Every undisturbed step keeps the invariant. -/
theorem step_sound (server : Server) (event : Event) (sound : Sound http server)
    (undisturbed : Undisturbed http server event) : Sound http (step http server event) := by
  cases event with
  | connect client => exact connect_sound http server client sound
  | receive client data => exact receive_sound http server client data sound
  | copy client => exact copy_sound http server client sound undisturbed
  | assign client => exact assign_sound http server client sound undisturbed
  | process client left => exact process_sound http server client left sound
  | elsewhere behind => exact elsewhere_sound http server behind sound

/-- In every run in which no thread is disturbed between its copy and its
processing, every request processed was sent by the client its reply goes to. -/
theorem undisturbed_run_isolated (rxBuffer : Mem) (events : List Event)
    (undisturbed : Along (step http) (Undisturbed http) (Server.start rxBuffer) events) :
    Isolated (run (step http) (Server.start rxBuffer) events) :=
  (along_invariant (step http)
    (fun server event sound met => step_sound http server event sound met)
    (Server.start rxBuffer) (start_sound http rxBuffer) events undisturbed).isolated

end

/-- The clients of the camera server are those of port 80. -/
def onPort80 : Client → Bool
  | .work _ => false
  | .camera _ => true

/-- The command `?T`. -/
def askT : List Byte := [0x3F, 0x54, 0x0D]

/-- The command `?E`. -/
def askE : List Byte := [0x3F, 0x45, 0x0D]

/-- A camera client copies before a work client does and assigns before it does. -/
def harmlessSchedule : List Event :=
  [.receive (.camera 0) askE, .copy (.camera 0), .receive (.work 0) askT, .copy (.work 0),
    .assign (.camera 0), .assign (.work 0), .process (.work 0) (fun _ => 0)]

/-- A second work client copies before the first one processes. -/
def preemptedSchedule : List Event :=
  [.receive (.work 0) askT, .copy (.work 0), .assign (.work 0), .receive (.work 1) askE,
    .copy (.work 1), .process (.work 0) (fun _ => 0)]

/-- In the harmless schedule the request of the work client is answered to it. -/
theorem harmless_schedule_isolated :
    (run (step onPort80) (Server.start (fun _ => 0)) harmlessSchedule).processed =
        [⟨3, 0, askT⟩] ∧
      Isolated (run (step onPort80) (Server.start (fun _ => 0)) harmlessSchedule) := by
  refine ⟨by decide, undisturbed_run_isolated onPort80 (fun _ => 0) harmlessSchedule ?_⟩
  refine ⟨trivial, ⟨fun data holds => ?_, fun other _ _ => ?_⟩, trivial,
    ⟨fun data holds => ?_, fun other differ work => ?_⟩, fun other differ work => ?_,
    fun other differ work => ?_, trivial, trivial⟩
  · obtain rfl : askE = data := Progress.received.inj holds
    decide
  · by_cases same : other = .camera 0
    · subst same
      rfl
    · simp [step, Server.start, Server.at, same, Progress.midway]
  · obtain rfl : askT = data := Progress.received.inj holds
    decide
  · have camera : other ≠ .camera 0 := by
      rintro rfl
      cases work
    simp [step, Server.start, Server.at, camera, differ, Progress.midway]
  · by_cases same : other = .work 0
    · subst same
      rfl
    · simp [step, Server.start, Server.at, same, differ, Progress.ready]
  · have camera : other ≠ .camera 0 := by
      rintro rfl
      cases work
    simp [step, Server.start, Server.at, camera, differ, Progress.ready]

/-- In the preempted schedule the first client gets the answer to the second one's
request. -/
theorem preempted_schedule_mixes :
    ¬∀ rxBuffer events, Isolated (run (step onPort80) (Server.start rxBuffer) events) := by
  intro isolated
  have sent := isolated (fun _ => 0) preemptedSchedule ⟨3, 0, askE⟩ (by decide)
  revert sent
  decide

end Pyrometer.ClientIsolation
