import Pyrometer.Runs

/-!
# Client slots of the TCP servers

Two servers listen on a port each, for work and for the camera. A server's task goes
through a state machine from waiting for the link to accepting clients; each client it
accepts gets the first free slot of the server's list, is registered in the channel group
of `comm_cfg.c`, and is served by a thread of its own until it disconnects. An error of
the network stack sends the task to its restart state, where it starts a new task on the
same context. The state is part of the context and is not reset, so the new task starts
in the restart state as well.

A step is one pass of a server task through its loop, with the results of the calls it
makes, or the disconnection of a client that a thread serves, as its thread performs it.
Steps are taken one at a time. How many threads serve a slot is recorded for the proofs;
the code does not know. Addresses, timers, the camera's flags and what clients send are
left out.
-/

namespace Pyrometer.TcpSlots

open Runs

/-- The two servers, `work_context` and `camera_context`. -/
inductive Server where
  | work
  | camera
  deriving DecidableEq, Repr

/-- `MAX_CLIENT_COUNT` slots. -/
abbrev Slot := Fin 4

/-- A connection of the network stack. -/
abbrev Conn := Nat

/-- `USER_THREAD_CNT`. -/
def userThreadCnt : Int := 13

/-- `SERVER_THREAD_BASE`. -/
def serverThreadBase : Int := 1

/-- `WORK_CLIENT_BASE` and `CAMERA_CLIENT_BASE`. -/
def Server.clientBaseNum : Server → Int
  | .work => 3
  | .camera => 7

/-- The number of the client in a slot. -/
def Server.clientNum (server : Server) (slot : Slot) : Int := server.clientBaseNum + slot.val

/-- `server_state_t`. -/
inductive ServerState where
  | waitLink
  | create
  | bind
  | listen
  | accept
  | restart
  deriving DecidableEq, Repr

/-- `client_t`, with the number of threads that serve it. -/
structure Client where
  online : Bool
  num : Int
  conn : Option Conn
  listenPort : Nat
  threads : Nat

/-- `server_context_t`. -/
structure Context where
  threadNum : Int
  listenPort : Nat
  clientCount : Int
  clientList : Slot → Client
  serverState : ServerState

/-- Both contexts, and the members of the TCP channel group. -/
structure Tcp where
  context : Server → Context
  channels : List Int

/-- What `netconn_accept` returns. -/
inductive Accepted where
  | timeout
  | aborted
  | failed
  | connection (conn : Conn)
  deriving DecidableEq, Repr

/-- The results of the calls that a pass of a server task may make. -/
structure Calls where
  linkUp : Bool
  netconnNew : Bool
  netconnBind : Bool
  netconnListen : Bool
  netconnAccept : Accepted
  channelMalloc : Bool
  xTaskCreate : Bool

/-- A 32-bit signed number. -/
def wrapInt (value : Int) : Int := Int.bmod value (2 ^ 32)

/-- `thread_create`: the number of the thread, or zero. -/
def threadCreate (num : Int) (xTaskCreate : Bool) : Int :=
  if num < 1 ∨ userThreadCnt < num then 0 else if xTaskCreate then num else 0

/-- `comm_channel_add`. -/
def commChannelAdd (malloc : Bool) (portId : Int) (channels : List Int) : List Int :=
  if malloc then channels ++ [portId] else channels

/-- `comm_channel_remove`. -/
def commChannelRemove (portId : Int) (channels : List Int) : List Int := channels.erase portId

/-- Change one context. -/
def Tcp.modify (tcp : Tcp) (server : Server) (change : Context → Context) : Tcp :=
  { tcp with context := Function.update tcp.context server (change (tcp.context server)) }

/-- The search for a free slot. -/
def Context.freeSlot (context : Context) : Option Slot :=
  (List.finRange 4).find? fun slot => !(context.clientList slot).online

/-- A client is accepted: the end of the case `SERVER_STATE_ACCEPT`. -/
def acceptClient (server : Server) (conn : Conn) (calls : Calls) (tcp : Tcp) : Tcp :=
  let context := tcp.context server
  match context.freeSlot with
  | none => tcp
  | some slot =>
      let num := server.clientNum slot
      let created := decide (threadCreate num calls.xTaskCreate ≠ 0)
      let client : Client :=
        { online := true
          num := num
          conn := some conn
          listenPort := context.listenPort
          threads := (context.clientList slot).threads + created.toNat }
      { context := Function.update tcp.context server
          { context with
            clientList := Function.update context.clientList slot client
            clientCount := if created then wrapInt (context.clientCount + 1)
              else context.clientCount }
        channels := commChannelAdd calls.channelMalloc num tcp.channels }

/-- Enter a state. -/
def Tcp.goTo (tcp : Tcp) (server : Server) (state : ServerState) : Tcp :=
  tcp.modify server fun context => { context with serverState := state }

/-- One pass of `server_task`. A restart that creates its task leaves a task in the same
state, and so does one that fails. -/
def serverTask (server : Server) (calls : Calls) (tcp : Tcp) : Tcp :=
  match (tcp.context server).serverState with
  | .waitLink => if calls.linkUp then tcp.goTo server .create else tcp
  | .create => tcp.goTo server (if calls.netconnNew then .bind else .restart)
  | .bind => tcp.goTo server (if calls.netconnBind then .listen else .restart)
  | .listen => tcp.goTo server (if calls.netconnListen then .accept else .restart)
  | .accept =>
      match calls.netconnAccept with
      | .timeout => tcp
      | .aborted => tcp
      | .failed => tcp.goTo server .restart
      | .connection conn => acceptClient server conn calls tcp
  | .restart => tcp

/-- The branch of `CLIENT_STATE_DISCONNECT` on the port the client came from. -/
def dropThreadNum (listenPort : Nat) (tcp : Tcp) : Tcp :=
  if listenPort = (tcp.context .work).listenPort then
    tcp.modify .work fun context => { context with threadNum := wrapInt (context.threadNum - 1) }
  else if listenPort = (tcp.context .camera).listenPort then
    tcp.modify .camera fun context => { context with threadNum := wrapInt (context.threadNum - 1) }
  else tcp

/-- The case `CLIENT_STATE_DISCONNECT` of `client_thread`, up to the end of the thread. -/
def clientDisconnect (server : Server) (slot : Slot) (tcp : Tcp) : Tcp :=
  let client := (tcp.context server).clientList slot
  if client.threads = 0 then tcp
  else
    (dropThreadNum client.listenPort
      { tcp with channels := commChannelRemove client.num tcp.channels }).modify server
      fun context =>
        { context with
          clientList := Function.update context.clientList slot
            { client with online := false, conn := none, threads := client.threads - 1 } }

/-- What can happen. -/
inductive Event where
  | pass (server : Server) (calls : Calls)
  | disconnect (server : Server) (slot : Slot)

/-- One step. -/
def step (tcp : Tcp) : Event → Tcp
  | .pass server calls => serverTask server calls tcp
  | .disconnect server slot => clientDisconnect server slot tcp

/-- A slot that was never used. -/
def blankClient : Client := ⟨false, 0, none, 0, 0⟩

/-- The contexts after `tcpsvr_start`; the port of the work server is a parameter. -/
def tcpsvrStart (netPort : Nat) : Tcp where
  context
    | .work => ⟨serverThreadBase, if netPort < 65536 then netPort else 6363, 0,
        fun _ => blankClient, .waitLink⟩
    | .camera => ⟨serverThreadBase + 1, 80, 0, fun _ => blankClient, .waitLink⟩
  channels := []

/-- The network behind `tcp_server_send_low`: the interface, the free space of a
connection's send buffer, whether a write is taken, and what the code finds behind the
end of a client list. -/
structure Network where
  netifUp : Bool
  sndbuf : Conn → Nat
  tcpWrite : Conn → Bool
  behind : Server → Nat → Option Conn

/-- The context that `tcp_server_send_low` takes for a client number. -/
def contextOf (clientNum : Int) : Option Server :=
  if Server.clientBaseNum .work ≤ clientNum ∧ clientNum < Server.clientBaseNum .camera then
    some .work
  else if Server.clientBaseNum .camera ≤ clientNum ∧ clientNum ≤ userThreadCnt then some .camera
  else none

/-- The connection that `tcp_server_send_low` finds for a client number. -/
def findConn (network : Network) (clientNum : Int) (tcp : Tcp) : Option Conn :=
  if clientNum < 0 ∨ userThreadCnt ≤ clientNum then none
  else
    match contextOf clientNum with
    | none => none
    | some server =>
        let localIndex := clientNum - server.clientBaseNum
        if localIndex < 0 ∨ (tcp.context server).clientCount ≤ localIndex then none
        else if inside : localIndex.toNat < 4 then
          ((tcp.context server).clientList ⟨localIndex.toNat, inside⟩).conn
        else network.behind server localIndex.toNat

/-- `tcp_server_send_low`: its result, and the connection it wrote to. -/
def tcpServerSendLow (network : Network) (clientNum : Int) (tcp : Tcp) : Int × Option Conn :=
  if network.netifUp = false then (-1, none)
  else
    match findConn network clientNum tcp with
    | none => (-1, none)
    | some conn =>
        if network.sndbuf conn < 23360 then (-1, none)
        else (if network.tcpWrite conn then 0 else -1, some conn)

/-- The accounts of a slot: it is online exactly while a thread serves it, no two threads
serve it, and its number is registered once while it is online and not otherwise. -/
structure SlotAccounted (tcp : Tcp) (server : Server) (slot : Slot) : Prop where
  serving : ((tcp.context server).clientList slot).online = true ↔
    0 < ((tcp.context server).clientList slot).threads
  single : ((tcp.context server).clientList slot).threads ≤ 1
  registered : tcp.channels.count (server.clientNum slot) =
    ((tcp.context server).clientList slot).online.toNat

/-- `tcp_server_send_low` finds the connection of the client in a slot, and writes to it if
the interface is up and there is space. -/
def Found (tcp : Tcp) (server : Server) (slot : Slot) : Prop :=
  ∃ conn, ((tcp.context server).clientList slot).conn = some conn ∧
    ∀ network : Network,
      findConn network ((tcp.context server).clientList slot).num tcp = some conn ∧
      (network.netifUp = true → 23360 ≤ network.sndbuf conn →
        (tcpServerSendLow network ((tcp.context server).clientList slot).num tcp).2 = some conn)

/-- A pass that accepts a client into a slot gets the memory for its channel and the
thread for its service, and the count of clients stays in its range. -/
def Granted (tcp : Tcp) : Event → Prop
  | .pass server calls =>
      (tcp.context server).serverState = .accept →
      ∀ conn, calls.netconnAccept = .connection conn →
      ∀ slot, (tcp.context server).freeSlot = some slot →
        calls.channelMalloc = true ∧ calls.xTaskCreate = true ∧
          (tcp.context server).clientCount + 1 < 2 ^ 31
  | .disconnect _ _ => True

/-- No client disconnects. -/
def Connected (_ : Tcp) : Event → Prop
  | .pass _ _ => True
  | .disconnect _ _ => False

/-- No call of the network stack fails that sends the server to its restart. -/
def Calm (tcp : Tcp) : Event → Prop
  | .pass server calls =>
      match (tcp.context server).serverState with
      | .create => calls.netconnNew = true
      | .bind => calls.netconnBind = true
      | .listen => calls.netconnListen = true
      | .accept => calls.netconnAccept ≠ .failed
      | _ => True
  | .disconnect _ _ => True

/-- The invariant of runs in which every client gets its channel and its thread. -/
structure Sound (tcp : Tcp) : Prop where
  served : ∀ server slot, ((tcp.context server).clientList slot).threads =
    ((tcp.context server).clientList slot).online.toNat
  registered : ∀ server slot, tcp.channels.count (server.clientNum slot) =
    ((tcp.context server).clientList slot).online.toNat
  numbered : ∀ server slot, ((tcp.context server).clientList slot).online = true →
    ((tcp.context server).clientList slot).num = server.clientNum slot
  connected : ∀ server slot, ((tcp.context server).clientList slot).online = true →
    ((tcp.context server).clientList slot).conn.isSome = true
  counted : ∀ server slot, ((tcp.context server).clientList slot).online = true →
    (slot.val : Int) < (tcp.context server).clientCount
  counting : ∀ server, 0 ≤ (tcp.context server).clientCount

/-- Different slots have different numbers. -/
theorem client_num_injective (server other : Server) (slot otherSlot : Slot)
    (same : server.clientNum slot = other.clientNum otherSlot) :
    server = other ∧ slot = otherSlot := by
  have low := slot.isLt
  have otherLow := otherSlot.isLt
  cases server <;> cases other <;> simp only [Server.clientNum, Server.clientBaseNum] at same
  · exact ⟨rfl, Fin.ext (by omega)⟩
  · omega
  · omega
  · exact ⟨rfl, Fin.ext (by omega)⟩

/-- The free slot is free, and the slots before it are not. -/
theorem free_slot_first (context : Context) (slot : Slot) (free : context.freeSlot = some slot) :
    (context.clientList slot).online = false ∧
      ∀ earlier : Slot, earlier < slot → (context.clientList earlier).online = true := by
  rw [Context.freeSlot, List.find?_eq_some_iff_getElem] at free
  obtain ⟨offline, index, inside, place, before⟩ := free
  refine ⟨by simpa using offline, fun earlier below => ?_⟩
  have position : index = slot.val := by
    rw [← place]
    simp
  have taken := before earlier.val (by rw [position]; exact below)
  simpa using taken

/-- A slot is free as long as one is not online. -/
theorem free_slot_exists (context : Context) (slot : Slot)
    (offline : (context.clientList slot).online = false) :
    ∃ found, context.freeSlot = some found := by
  have found : (context.freeSlot).isSome = true := by
    rw [Context.freeSlot, List.find?_isSome]
    exact ⟨slot, List.mem_finRange slot, by simp [offline]⟩
  exact Option.isSome_iff_exists.mp found

/-- The invariant looks at the clients, their counts and the channels only. -/
theorem sound_congr {before after : Tcp} (sound : Sound before)
    (lists : ∀ server, (after.context server).clientList = (before.context server).clientList)
    (counts : ∀ server, (after.context server).clientCount = (before.context server).clientCount)
    (channels : after.channels = before.channels) : Sound after := by
  refine ⟨?_, ?_, ?_, ?_, ?_, ?_⟩
  · intro server slot
    rw [lists]
    exact sound.served server slot
  · intro server slot
    rw [lists, channels]
    exact sound.registered server slot
  · intro server slot
    rw [lists]
    exact sound.numbered server slot
  · intro server slot
    rw [lists]
    exact sound.connected server slot
  · intro server slot
    rw [lists, counts]
    exact sound.counted server slot
  · intro server
    rw [counts]
    exact sound.counting server

/-- Entering a state changes nothing else. -/
theorem go_to_sound {tcp : Tcp} (sound : Sound tcp) (server : Server) (state : ServerState) :
    Sound (tcp.goTo server state) := by
  have unchanged : ∀ other,
      ((tcp.goTo server state).context other).clientList = (tcp.context other).clientList ∧
      ((tcp.goTo server state).context other).clientCount = (tcp.context other).clientCount := by
    intro other
    by_cases same : other = server
    · simp [Tcp.goTo, Tcp.modify, same]
    · simp [Tcp.goTo, Tcp.modify, Function.update_of_ne same]
  exact sound_congr sound (fun other => (unchanged other).1) (fun other => (unchanged other).2) rfl

/-- The thread of a client can be created: its number is in range. -/
theorem thread_create_client (server : Server) (slot : Slot) :
    threadCreate (server.clientNum slot) true ≠ 0 := by
  have low := slot.isLt
  have range : 1 ≤ server.clientNum slot ∧ server.clientNum slot ≤ userThreadCnt := by
    unfold Server.clientNum userThreadCnt
    cases server <;> simp only [Server.clientBaseNum] <;> omega
  rw [threadCreate, if_neg (by omega), if_pos rfl]
  omega

/-- The clients after an accept that is granted its channel and its thread. -/
theorem accept_granted {tcp : Tcp} {server : Server} {slot : Slot} (conn : Conn) (calls : Calls)
    (free : (tcp.context server).freeSlot = some slot) (malloc : calls.channelMalloc = true)
    (created : calls.xTaskCreate = true) (low : 0 ≤ (tcp.context server).clientCount)
    (high : (tcp.context server).clientCount + 1 < 2 ^ 31) :
    (∀ other otherSlot,
      ((acceptClient server conn calls tcp).context other).clientList otherSlot =
        if other = server ∧ otherSlot = slot then
          ⟨true, server.clientNum slot, some conn, (tcp.context server).listenPort,
            ((tcp.context server).clientList slot).threads + 1⟩
        else (tcp.context other).clientList otherSlot) ∧
    (∀ other, ((acceptClient server conn calls tcp).context other).clientCount =
      if other = server then (tcp.context server).clientCount + 1
      else (tcp.context other).clientCount) ∧
    (acceptClient server conn calls tcp).channels = tcp.channels ++ [server.clientNum slot] := by
  have started := thread_create_client server slot
  have count : wrapInt ((tcp.context server).clientCount + 1) =
      (tcp.context server).clientCount + 1 :=
    Int.bmod_eq_of_le (by norm_num; omega) (by norm_num; omega)
  refine ⟨fun other otherSlot => ?_, fun other => ?_, ?_⟩
  · by_cases same : other = server
    · by_cases sameSlot : otherSlot = slot
      · simp [acceptClient, free, created, started, same, sameSlot]
      · simp [acceptClient, free, same, sameSlot]
    · simp [acceptClient, free, same]
  · by_cases same : other = server
    · simp [acceptClient, free, created, started, same, count]
    · simp [acceptClient, free, same]
  · simp [acceptClient, free, commChannelAdd, malloc]

/-- An accept that is granted its channel and its thread keeps the invariant. The slot
before the free one is online, so the new client's index is at most the old count. -/
theorem accept_sound {tcp : Tcp} (sound : Sound tcp) {server : Server} {slot : Slot} (conn : Conn)
    (calls : Calls) (free : (tcp.context server).freeSlot = some slot)
    (malloc : calls.channelMalloc = true) (created : calls.xTaskCreate = true)
    (high : (tcp.context server).clientCount + 1 < 2 ^ 31) :
    Sound (acceptClient server conn calls tcp) := by
  obtain ⟨lists, counts, channels⟩ :=
    accept_granted conn calls free malloc created (sound.counting server) high
  obtain ⟨offline, before⟩ := free_slot_first (tcp.context server) slot free
  have unserved := sound.served server slot
  have unregistered := sound.registered server slot
  rw [offline] at unserved unregistered
  constructor
  case served =>
    intro other otherSlot
    rw [lists]
    split
    · simp [unserved]
    · exact sound.served other otherSlot
  case registered =>
    intro other otherSlot
    rw [lists, channels, List.count_append]
    split
    case isTrue same =>
      obtain ⟨rfl, rfl⟩ := same
      rw [unregistered]
      simp
    case isFalse different =>
      have apart : server.clientNum slot ≠ other.clientNum otherSlot := by
        intro same
        obtain ⟨rfl, rfl⟩ := client_num_injective _ _ _ _ same
        exact different ⟨rfl, rfl⟩
      rw [List.count_singleton, sound.registered other otherSlot]
      simp [apart]
  case numbered =>
    intro other otherSlot
    rw [lists]
    split
    case isTrue same => exact fun _ => by rw [same.1, same.2]
    case isFalse => exact sound.numbered other otherSlot
  case connected =>
    intro other otherSlot
    rw [lists]
    split
    case isTrue => exact fun _ => rfl
    case isFalse => exact sound.connected other otherSlot
  case counted =>
    intro other otherSlot
    rw [lists, counts]
    split
    case isTrue same =>
      obtain ⟨rfl, rfl⟩ := same
      intro _
      rw [if_pos rfl]
      rcases Nat.eq_zero_or_pos otherSlot.val with first | later
      · have positive := sound.counting other
        omega
      · have inside := otherSlot.isLt
        have previous := sound.counted other ⟨otherSlot.val - 1, by omega⟩
          (before _ (Fin.lt_def.mpr (by simp only; omega)))
        simp only at previous
        omega
    case isFalse =>
      intro online
      have below := sound.counted other otherSlot online
      split
      case isTrue same =>
        rw [same] at below
        omega
      case isFalse => exact below
  case counting =>
    intro other
    rw [counts]
    split
    · have positive := sound.counting server
      omega
    · exact sound.counting other

/-- The thread number does not matter to clients, counts and channels. -/
theorem drop_thread_num_kept (listenPort : Nat) (tcp : Tcp) :
    (∀ server, ((dropThreadNum listenPort tcp).context server).clientList =
        (tcp.context server).clientList ∧
      ((dropThreadNum listenPort tcp).context server).clientCount =
        (tcp.context server).clientCount ∧
      ((dropThreadNum listenPort tcp).context server).serverState =
        (tcp.context server).serverState) ∧
    (dropThreadNum listenPort tcp).channels = tcp.channels := by
  have modified : ∀ target : Server, ∀ server,
      ((tcp.modify target fun context =>
        { context with threadNum := wrapInt (context.threadNum - 1) }).context server).clientList =
          (tcp.context server).clientList ∧
      ((tcp.modify target fun context =>
        { context with threadNum := wrapInt (context.threadNum - 1) }).context server).clientCount =
          (tcp.context server).clientCount ∧
      ((tcp.modify target fun context =>
        { context with threadNum := wrapInt (context.threadNum - 1) }).context server).serverState =
          (tcp.context server).serverState := by
    intro target server
    by_cases same : server = target
    · simp [Tcp.modify, same]
    · simp [Tcp.modify, Function.update_of_ne same]
  unfold dropThreadNum
  split
  · exact ⟨modified .work, rfl⟩
  · split
    · exact ⟨modified .camera, rfl⟩
    · exact ⟨fun server => ⟨rfl, rfl, rfl⟩, rfl⟩

/-- The clients after a disconnection. -/
theorem disconnect_result {tcp : Tcp} {server : Server} {slot : Slot}
    (serving : ((tcp.context server).clientList slot).threads ≠ 0) :
    (∀ other otherSlot, ((clientDisconnect server slot tcp).context other).clientList otherSlot =
        if other = server ∧ otherSlot = slot then
          { (tcp.context server).clientList slot with
            online := false
            conn := none
            threads := ((tcp.context server).clientList slot).threads - 1 }
        else (tcp.context other).clientList otherSlot) ∧
    (∀ other, ((clientDisconnect server slot tcp).context other).clientCount =
        (tcp.context other).clientCount ∧
      ((clientDisconnect server slot tcp).context other).serverState =
        (tcp.context other).serverState) ∧
    (clientDisconnect server slot tcp).channels =
      tcp.channels.erase ((tcp.context server).clientList slot).num := by
  obtain ⟨kept, channels⟩ := drop_thread_num_kept ((tcp.context server).clientList slot).listenPort
    { tcp with
      channels := commChannelRemove ((tcp.context server).clientList slot).num tcp.channels }
  refine ⟨fun other otherSlot => ?_, fun other => ?_, ?_⟩
  · have list := (kept other).1
    by_cases same : other = server
    · subst same
      by_cases sameSlot : otherSlot = slot
      · simp [clientDisconnect, serving, Tcp.modify, sameSlot]
      · simp [clientDisconnect, serving, Tcp.modify, sameSlot, list]
    · simp [clientDisconnect, serving, Tcp.modify, same, list]
  · by_cases same : other = server
    · subst same
      simp [clientDisconnect, serving, Tcp.modify, (kept other).2]
    · simp [clientDisconnect, serving, Tcp.modify, same, (kept other).2]
  · simp only [clientDisconnect, serving, if_false, Tcp.modify]
    exact channels

/-- A disconnection keeps the invariant. -/
theorem disconnect_sound {tcp : Tcp} (sound : Sound tcp) (server : Server) (slot : Slot) :
    Sound (clientDisconnect server slot tcp) := by
  by_cases idle : ((tcp.context server).clientList slot).threads = 0
  · simp only [clientDisconnect, idle, if_true]
    exact sound
  · obtain ⟨lists, counts, channels⟩ := disconnect_result idle
    have served := sound.served server slot
    have online : ((tcp.context server).clientList slot).online = true := by
      by_contra offline
      rw [Bool.not_eq_true] at offline
      rw [offline] at served
      exact idle served
    rw [sound.numbered server slot online] at channels
    refine ⟨?_, ?_, ?_, ?_, ?_, fun other => ?_⟩
    · intro other otherSlot
      rw [lists]
      split
      · rw [served, online]
        rfl
      · exact sound.served other otherSlot
    · intro other otherSlot
      rw [lists, channels]
      split
      case isTrue same =>
        obtain ⟨rfl, rfl⟩ := same
        rw [List.count_erase_self, sound.registered other otherSlot, online]
        rfl
      case isFalse different =>
        have apart : other.clientNum otherSlot ≠ server.clientNum slot := by
          intro same
          obtain ⟨rfl, rfl⟩ := client_num_injective _ _ _ _ same
          exact different ⟨rfl, rfl⟩
        rw [List.count_erase_of_ne apart, sound.registered other otherSlot]
    · intro other otherSlot
      rw [lists]
      split
      · intro impossible
        exact absurd impossible Bool.false_ne_true
      · exact sound.numbered other otherSlot
    · intro other otherSlot
      rw [lists]
      split
      · intro impossible
        exact absurd impossible Bool.false_ne_true
      · exact sound.connected other otherSlot
    · intro other otherSlot
      rw [lists, (counts other).1]
      split
      · intro impossible
        exact absurd impossible Bool.false_ne_true
      · exact sound.counted other otherSlot
    · rw [(counts other).1]
      exact sound.counting other

/-- A pass of a server task enters a state, accepts a client, or does nothing. -/
theorem server_task_cases (server : Server) (calls : Calls) (tcp : Tcp) :
    serverTask server calls tcp = tcp ∨
      (∃ state, serverTask server calls tcp = tcp.goTo server state) ∨
      ((tcp.context server).serverState = .accept ∧
        ∃ conn, calls.netconnAccept = .connection conn ∧
          serverTask server calls tcp = acceptClient server conn calls tcp) := by
  unfold serverTask
  cases state : (tcp.context server).serverState with
  | waitLink =>
    simp only
    split
    · exact Or.inr (Or.inl ⟨_, rfl⟩)
    · exact Or.inl rfl
  | create => exact Or.inr (Or.inl ⟨_, rfl⟩)
  | bind => exact Or.inr (Or.inl ⟨_, rfl⟩)
  | listen => exact Or.inr (Or.inl ⟨_, rfl⟩)
  | accept =>
    cases accepted : calls.netconnAccept with
    | timeout => exact Or.inl rfl
    | aborted => exact Or.inl rfl
    | failed => exact Or.inr (Or.inl ⟨_, rfl⟩)
    | connection conn => exact Or.inr (Or.inr ⟨rfl, conn, rfl, rfl⟩)
  | restart => exact Or.inl rfl

/-- A granted step keeps the invariant. -/
theorem step_sound (tcp : Tcp) (event : Event) (sound : Sound tcp) (granted : Granted tcp event) :
    Sound (step tcp event) := by
  cases event with
  | disconnect server slot => exact disconnect_sound sound server slot
  | pass server calls =>
    rcases server_task_cases server calls tcp with
      idle | ⟨state, moved⟩ | ⟨ready, conn, accepted, call⟩
    · rw [step, idle]
      exact sound
    · rw [step, moved]
      exact go_to_sound sound server state
    · rw [step, call]
      cases free : (tcp.context server).freeSlot with
      | none =>
        simp only [acceptClient, free]
        exact sound
      | some slot =>
        obtain ⟨malloc, created, high⟩ := granted ready conn accepted slot free
        exact accept_sound sound conn calls free malloc created high

/-- Nobody is connected at the start. -/
theorem start_sound (netPort : Nat) : Sound (tcpsvrStart netPort) := by
  have blank : ∀ server slot,
      ((tcpsvrStart netPort).context server).clientList slot = blankClient := by
    intro server slot
    cases server <;> rfl
  have zero : ∀ server, ((tcpsvrStart netPort).context server).clientCount = 0 := by
    intro server
    cases server <;> rfl
  refine ⟨?_, ?_, ?_, ?_, ?_, ?_⟩
  · intro server slot
    rw [blank]
    rfl
  · intro server slot
    rw [blank]
    rfl
  · intro server slot online
    rw [blank] at online
    exact absurd online (by decide)
  · intro server slot online
    rw [blank] at online
    exact absurd online (by decide)
  · intro server slot online
    rw [blank] at online
    exact absurd online (by decide)
  · intro server
    rw [zero]

/-- The invariant gives the accounts of every slot. -/
theorem sound_accounted {tcp : Tcp} (sound : Sound tcp) (server : Server) (slot : Slot) :
    SlotAccounted tcp server slot := by
  refine ⟨?_, ?_, sound.registered server slot⟩
  · rw [sound.served server slot]
    cases ((tcp.context server).clientList slot).online <;> decide
  · rw [sound.served server slot]
    exact Bool.toNat_le _

/-- The number of a client leads to its server. -/
theorem context_of_client (server : Server) (slot : Slot) :
    contextOf (server.clientNum slot) = some server := by
  have low := slot.isLt
  have work : Server.clientBaseNum .work = 3 := rfl
  have camera : Server.clientBaseNum .camera = 7 := rfl
  have last : userThreadCnt = 13 := rfl
  unfold contextOf Server.clientNum
  cases server with
  | work => rw [if_pos (by omega)]
  | camera => rw [if_neg (by omega), if_pos (by omega)]

/-- The invariant lets `tcp_server_send_low` find every client that is online. -/
theorem sound_found {tcp : Tcp} (sound : Sound tcp) (server : Server) (slot : Slot)
    (online : ((tcp.context server).clientList slot).online = true) : Found tcp server slot := by
  obtain ⟨conn, held⟩ := Option.isSome_iff_exists.mp (sound.connected server slot online)
  have below := sound.counted server slot online
  have low := slot.isLt
  have range : 0 ≤ server.clientNum slot ∧ server.clientNum slot < userThreadCnt := by
    unfold Server.clientNum userThreadCnt
    cases server <;> simp only [Server.clientBaseNum] <;> omega
  have place : server.clientNum slot - server.clientBaseNum = (slot.val : Int) := by
    unfold Server.clientNum
    omega
  have found : ∀ network, findConn network ((tcp.context server).clientList slot).num tcp =
      some conn := by
    intro network
    rw [sound.numbered server slot online, findConn, if_neg (by omega), context_of_client]
    simp only [place, Int.toNat_natCast]
    rw [if_neg (by omega), dif_pos low]
    exact held
  refine ⟨conn, held, fun network => ⟨found network, fun up space => ?_⟩⟩
  simp only [tcpServerSendLow, up, Bool.true_eq_false, if_false, found network]
  rw [if_neg (by omega)]

/-- A pass of a server task keeps the thread numbers. -/
theorem pass_thread_num (server : Server) (calls : Calls) (tcp : Tcp) (other : Server) :
    ((serverTask server calls tcp).context other).threadNum = (tcp.context other).threadNum := by
  rcases server_task_cases server calls tcp with idle | ⟨state, moved⟩ | ⟨-, conn, -, call⟩
  · rw [idle]
  · rw [moved]
    by_cases same : other = server
    · simp [Tcp.goTo, Tcp.modify, same]
    · simp [Tcp.goTo, Tcp.modify, same]
  · rw [call]
    unfold acceptClient
    simp only
    split
    · rfl
    · by_cases same : other = server
      · simp [same]
      · simp [same]

/-- While no client disconnects the thread numbers stay. -/
theorem connected_thread_num (start : Tcp) (events : List Event)
    (connected : Along step Connected start events) (server : Server) :
    ((run step start events).context server).threadNum = (start.context server).threadNum := by
  have preserved : ∀ tcp event,
      (tcp.context server).threadNum = (start.context server).threadNum → Connected tcp event →
      ((step tcp event).context server).threadNum = (start.context server).threadNum := by
    intro tcp event same allowed
    cases event with
    | pass other calls => rw [step, pass_thread_num, same]
    | disconnect other slot => exact absurd allowed id
  exact along_invariant step preserved start rfl events connected

/-- Accepting a client keeps the states of the servers. -/
theorem accept_state (server : Server) (conn : Conn) (calls : Calls) (tcp : Tcp)
    (other : Server) :
    ((acceptClient server conn calls tcp).context other).serverState =
      (tcp.context other).serverState := by
  unfold acceptClient
  simp only
  split
  · rfl
  · by_cases same : other = server
    · simp [same]
    · simp [same]

/-- The server is not in its restart state while nothing fails. -/
theorem calm_not_restart (start : Tcp) (events : List Event)
    (fine : ∀ server, (start.context server).serverState ≠ .restart)
    (calm : Along step Calm start events) (server : Server) :
    ((run step start events).context server).serverState ≠ .restart := by
  have goes : ∀ (tcp : Tcp) (target : Server) (state : ServerState),
      (∀ server, (tcp.context server).serverState ≠ .restart) → state ≠ .restart →
      ∀ server, ((tcp.goTo target state).context server).serverState ≠ .restart := by
    intro tcp target state before after server
    by_cases same : server = target
    · simpa [Tcp.goTo, Tcp.modify, same] using after
    · simpa [Tcp.goTo, Tcp.modify, same] using before server
  have preserved : ∀ tcp event, (∀ server, (tcp.context server).serverState ≠ .restart) →
      Calm tcp event → ∀ server, ((step tcp event).context server).serverState ≠ .restart := by
    intro tcp event before allowed
    cases event with
    | disconnect target slot =>
      intro server
      by_cases idle : ((tcp.context target).clientList slot).threads = 0
      · simp only [step, clientDisconnect, idle, if_true]
        exact before server
      · rw [step, ((disconnect_result idle).2.1 server).2]
        exact before server
    | pass target calls =>
      simp only [Calm] at allowed
      simp only [step, serverTask]
      cases state : (tcp.context target).serverState with
      | waitLink =>
        simp only
        split
        · exact goes tcp target .create before (by decide)
        · exact before
      | create =>
        simp only [state] at allowed
        exact goes tcp target _ before (by simp [allowed])
      | bind =>
        simp only [state] at allowed
        exact goes tcp target _ before (by simp [allowed])
      | listen =>
        simp only [state] at allowed
        exact goes tcp target _ before (by simp [allowed])
      | accept =>
        simp only [state] at allowed
        cases accepted : calls.netconnAccept with
        | timeout => exact before
        | aborted => exact before
        | failed => exact absurd accepted allowed
        | connection conn =>
          intro server
          rw [accept_state]
          exact before server
      | restart => exact absurd state (before target)
  exact along_invariant step preserved start fine events calm server

/-- The results of the calls when everything goes well and a client asks for a connection. -/
def welcome (conn : Conn) : Calls := ⟨true, true, true, true, .connection conn, true, true⟩

/-- The slots before a bound hold the first clients, and the others are free. -/
def Filled (tcp : Tcp) (server : Server) (conns : Slot → Conn) (bound : Nat) : Prop :=
  (tcp.context server).serverState = .accept ∧
    ∀ slot : Slot, (((tcp.context server).clientList slot).online = true ↔ slot.val < bound) ∧
      (slot.val < bound → ((tcp.context server).clientList slot).conn = some (conns slot))

/-- The next client gets the next slot. -/
theorem filled_succ {tcp : Tcp} {server : Server} {conns : Slot → Conn} (next : Slot)
    (filled : Filled tcp server conns next.val) :
    Filled (step tcp (.pass server (welcome (conns next)))) server conns (next.val + 1) := by
  obtain ⟨ready, slots⟩ := filled
  have offline : ((tcp.context server).clientList next).online = false := by
    rw [← Bool.not_eq_true, (slots next).1]
    omega
  obtain ⟨found, free⟩ := free_slot_exists (tcp.context server) next offline
  have first := free_slot_first (tcp.context server) found free
  have place : found = next := by
    have notBelow : ¬found.val < next.val := by
      rw [← (slots found).1, first.1]
      exact Bool.false_ne_true
    have notAbove : ¬next < found := by
      intro above
      rw [first.2 next above] at offline
      exact absurd offline (by decide)
    rw [Fin.lt_def] at notAbove
    exact Fin.ext (by omega)
  rw [place] at free
  have call : step tcp (.pass server (welcome (conns next))) =
      acceptClient server (conns next) (welcome (conns next)) tcp := by
    simp [step, serverTask, ready, welcome]
  rw [call]
  refine ⟨?_, fun slot => ?_⟩
  · rw [accept_state, ready]
  · by_cases same : slot = next
    · rw [same]
      simp [acceptClient, free]
    · have apart : slot.val ≠ next.val := fun equal => same (Fin.ext equal)
      have other := slots slot
      have bounds : slot.val < next.val + 1 ↔ slot.val < next.val := by omega
      rw [bounds]
      simpa [acceptClient, free, same] using other

/-- How many passes a server needs before it accepts, when everything goes well. -/
def ServerState.passesLeft : ServerState → Nat
  | .waitLink => 4
  | .create => 3
  | .bind => 2
  | .listen => 1
  | .accept => 0
  | .restart => 0

/-- A pass in which everything goes well brings a server that is on its way one pass
closer to accepting, and keeps its clients. -/
theorem welcome_pass (tcp : Tcp) (server : Server) (left : Nat)
    (away : (tcp.context server).serverState.passesLeft = left + 1) :
    ((step tcp (.pass server (welcome 0))).context server).serverState.passesLeft = left ∧
      ((step tcp (.pass server (welcome 0))).context server).serverState ≠ .restart ∧
      ((step tcp (.pass server (welcome 0))).context server).clientList =
        (tcp.context server).clientList := by
  cases state : (tcp.context server).serverState <;> rw [state] at away <;>
    simp only [ServerState.passesLeft] at away
  case waitLink =>
    simp [step, serverTask, state, welcome, Tcp.goTo, Tcp.modify, ServerState.passesLeft]
    omega
  case create =>
    simp [step, serverTask, state, welcome, Tcp.goTo, Tcp.modify, ServerState.passesLeft]
    omega
  case bind =>
    simp [step, serverTask, state, welcome, Tcp.goTo, Tcp.modify, ServerState.passesLeft]
    omega
  case listen =>
    simp [step, serverTask, state, welcome, Tcp.goTo, Tcp.modify, ServerState.passesLeft]
    omega
  case accept => omega
  case restart => omega

/-- A server that is not in its restart state gets to accepting with the clients it has. -/
theorem reaches_accept (tcp : Tcp) (server : Server) (left : Nat)
    (fine : (tcp.context server).serverState ≠ .restart)
    (away : (tcp.context server).serverState.passesLeft = left) :
    ((run step tcp (List.replicate left (.pass server (welcome 0)))).context server).serverState =
        .accept ∧
      ((run step tcp (List.replicate left (.pass server (welcome 0)))).context server).clientList =
        (tcp.context server).clientList := by
  induction left generalizing tcp with
  | zero =>
    refine ⟨?_, rfl⟩
    change (tcp.context server).serverState = .accept
    cases state : (tcp.context server).serverState <;> rw [state] at away fine <;>
      simp_all [ServerState.passesLeft]
  | succ left inductionHypothesis =>
    obtain ⟨closer, stillFine, kept⟩ := welcome_pass tcp server left away
    obtain ⟨ready, list⟩ := inductionHypothesis _ stillFine closer
    rw [List.replicate_succ]
    exact ⟨ready, list.trans kept⟩

section

/-- A list has slots to number. -/
local instance slots_nonzero : NeZero 4 := ⟨by decide⟩

/-- The passes in which a server gets to accepting and accepts four clients. -/
def fourClients (server : Server) (state : ServerState) (conns : Slot → Conn) : List Event :=
  List.replicate state.passesLeft (.pass server (welcome 0)) ++
    [.pass server (welcome (conns 0)), .pass server (welcome (conns 1)),
      .pass server (welcome (conns 2)), .pass server (welcome (conns 3))]

end

/-- A server without clients that is not in its restart state accepts four clients. -/
theorem four_accepted (tcp : Tcp) (server : Server)
    (fine : (tcp.context server).serverState ≠ .restart)
    (empty : ∀ slot, ((tcp.context server).clientList slot).online = false)
    (conns : Slot → Conn) (slot : Slot) :
    (((run step tcp (fourClients server (tcp.context server).serverState conns)).context
        server).clientList slot).online = true ∧
      (((run step tcp (fourClients server (tcp.context server).serverState conns)).context
        server).clientList slot).conn = some (conns slot) := by
  obtain ⟨ready, list⟩ := reaches_accept tcp server _ fine rfl
  have vacant : Filled (run step tcp (List.replicate (tcp.context server).serverState.passesLeft
      (.pass server (welcome 0)))) server conns (0 : Slot).val := by
    refine ⟨ready, fun slot => ⟨?_, fun below => absurd below (Nat.not_lt_zero _)⟩⟩
    rw [list, empty slot]
    simp
  have all := filled_succ 3 (filled_succ 2 (filled_succ 1 (filled_succ 0 vacant)))
  have inside := slot.isLt
  have split : run step tcp (fourClients server (tcp.context server).serverState conns) =
      step (step (step (step (run step tcp (List.replicate
        (tcp.context server).serverState.passesLeft (.pass server (welcome 0))))
        (.pass server (welcome (conns 0)))) (.pass server (welcome (conns 1))))
        (.pass server (welcome (conns 2)))) (.pass server (welcome (conns 3))) := by
    simp [run, fourClients, List.foldl_append]
  rw [split]
  exact ⟨((all.2 slot).1).mpr inside, (all.2 slot).2 inside⟩

/-- Four new clients find their slots with a server without clients. -/
def AcceptsFour (tcp : Tcp) (server : Server) : Prop :=
  (∀ slot, ((tcp.context server).clientList slot).online = false) →
    ∀ (conns : Slot → Conn) (slot : Slot),
      (((run step tcp (fourClients server (tcp.context server).serverState conns)).context
          server).clientList slot).online = true ∧
        (((run step tcp (fourClients server (tcp.context server).serverState conns)).context
          server).clientList slot).conn = some (conns slot)

/-- The servers as they are meant to be. -/
structure InOrder (start tcp : Tcp) : Prop where
  accounted : ∀ server slot, SlotAccounted tcp server slot
  found : ∀ server slot, ((tcp.context server).clientList slot).online = true →
    Found tcp server slot
  threadNums : ∀ server, (tcp.context server).threadNum = (start.context server).threadNum
  accepting : ∀ server, AcceptsFour tcp server

/-- Over every run from the start: the accounts of every slot are in order and every
client that is online is found while each accepted client gets its channel and its
thread; the thread numbers of the listening tasks stay while no client disconnects; a
server whose clients have all gone accepts four new ones while no call of the network
stack has failed. While all of that is so, the servers are as they are meant to be. -/
theorem tcp_slots_accounted (netPort : Nat) (events : List Event) :
    (Along step Granted (tcpsvrStart netPort) events → ∀ server slot,
      SlotAccounted (run step (tcpsvrStart netPort) events) server slot ∧
      ((((run step (tcpsvrStart netPort) events).context server).clientList slot).online = true →
        Found (run step (tcpsvrStart netPort) events) server slot)) ∧
    (Along step Connected (tcpsvrStart netPort) events → ∀ server,
      ((run step (tcpsvrStart netPort) events).context server).threadNum =
        ((tcpsvrStart netPort).context server).threadNum) ∧
    (Along step Calm (tcpsvrStart netPort) events → ∀ server,
      AcceptsFour (run step (tcpsvrStart netPort) events) server) ∧
    (Along step Granted (tcpsvrStart netPort) events →
      Along step Connected (tcpsvrStart netPort) events →
      Along step Calm (tcpsvrStart netPort) events →
      InOrder (tcpsvrStart netPort) (run step (tcpsvrStart netPort) events)) := by
  have sound := along_invariant step step_sound (tcpsvrStart netPort) (start_sound netPort) events
  have fine := calm_not_restart (tcpsvrStart netPort) events
    (fun server => by cases server <;> simp [tcpsvrStart])
  have numbers := connected_thread_num (tcpsvrStart netPort) events
  refine ⟨fun granted server slot => ?_, numbers, fun calm server => ?_,
    fun granted connected calm => ?_⟩
  · exact ⟨sound_accounted (sound granted) server slot, sound_found (sound granted) server slot⟩
  · exact four_accepted _ server (fine calm server)
  · exact ⟨sound_accounted (sound granted), sound_found (sound granted), numbers connected,
      fun server => four_accepted _ server (fine calm server)⟩

/-- The work server gets to accepting, and accepts a client. -/
def oneClient : List Event :=
  List.replicate 4 (.pass .work (welcome 0)) ++ [.pass .work (welcome 5)]

/-- A client that gets its channel and its thread is online, and the servers are in order. -/
theorem tcp_slots_accounted_client :
    (((run step (tcpsvrStart 6363) oneClient).context .work).clientList 0).online = true ∧
      InOrder (tcpsvrStart 6363) (run step (tcpsvrStart 6363) oneClient) := by
  have granted : Along step Granted (tcpsvrStart 6363) oneClient :=
    ⟨fun _ _ _ _ _ => ⟨rfl, rfl, by decide⟩, fun _ _ _ _ _ => ⟨rfl, rfl, by decide⟩,
      fun _ _ _ _ _ => ⟨rfl, rfl, by decide⟩, fun _ _ _ _ _ => ⟨rfl, rfl, by decide⟩,
      fun _ _ _ _ _ => ⟨rfl, rfl, by decide⟩, True.intro⟩
  have connected : Along step Connected (tcpsvrStart 6363) oneClient :=
    ⟨True.intro, True.intro, True.intro, True.intro, True.intro, True.intro⟩
  have calm : Along step Calm (tcpsvrStart 6363) oneClient :=
    ⟨True.intro, rfl, rfl, rfl, Accepted.noConfusion, True.intro⟩
  exact ⟨by decide, (tcp_slots_accounted 6363 oneClient).2.2.2 granted connected calm⟩

/-- A client whose thread cannot be created keeps its slot without being served. -/
theorem unserved_client_stays_online :
    ¬∀ (netPort : Nat) (events : List Event),
      InOrder (tcpsvrStart netPort) (run step (tcpsvrStart netPort) events) := by
  intro inOrder
  have serving := ((inOrder 6363
    [.pass .work (welcome 0), .pass .work (welcome 0), .pass .work (welcome 0),
      .pass .work (welcome 0), .pass .work { welcome 5 with xTaskCreate := false }]).accounted
    .work 0).serving
  exact absurd serving (by decide)

end Pyrometer.TcpSlots
