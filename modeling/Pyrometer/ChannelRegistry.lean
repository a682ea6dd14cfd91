import Pyrometer.ByteMemory
import Pyrometer.MemoryBlocks
import Pyrometer.Runs

/-!
# The registry of communication channels

`comm_cfg.c` keeps an array of groups, and in each group an array of ports. Each change makes a
new block and copies the old elements. An event carries whether its call of `pvPortMalloc`
gives a block. A step that uses an element in front of an array, behind its block or never set
has no result.

`Registry` is the list of groups with the lists of their ports. `Sound` joins a manager to it,
and the last answer to what was asked. The mutex is left out, as it is always obtained. A send
function is any type; what it does is not modelled.
-/

namespace Pyrometer.ChannelRegistry

open ByteMemory MemoryBlocks Runs

variable {Sender α : Type}

/-- `comm_group_t` -/
structure CommGroup (Sender : Type) where
  groupName : List Byte
  channels : Option (Block Int)
  channelCount : Nat
  sendFunc : Option Sender

/-- `comm_manager_t` -/
structure CommManager (Sender : Type) where
  groups : Option (Block (CommGroup Sender))
  groupCount : Nat

/-- The manager that `comm_init` has cleared. -/
def commMgrInit : CommManager Sender := ⟨none, 0⟩

/-- An element of an array behind a pointer. -/
def loadFrom (array : Option (Block α)) (index : Nat) : Option α :=
  array.bind (fun block => load block index)

/-- The new block of an array that gets one element more. -/
def grown (array : Option (Block α)) (count : Nat) (value : α) : Option (Block α) := do
  let fresh := malloc α (count + 1)
  let copied ←
    match array with
    | none => pure fresh
    | some old => memcpy fresh old count
  store copied count value

/-- `&comm_mgr.groups[group_idx]`, with the group there. -/
def groupAt (mgr : CommManager Sender) (groupIdx : Int) : Option (Nat × CommGroup Sender) :=
  if groupIdx < 0 then none
  else (loadFrom mgr.groups groupIdx.toNat).map (fun group => (groupIdx.toNat, group))

/-- The manager with another group at a place. -/
def writeGroup (mgr : CommManager Sender) (place : Nat) (group : CommGroup Sender) :
    Option (CommManager Sender) := do
  let groups ← mgr.groups
  let written ← store groups place group
  pure { mgr with groups := some written }

/-- `comm_group_create` -/
def commGroupCreate (mgr : CommManager Sender) (groupName : List Byte)
    (sendFunc : Option Sender) (block : Bool) : Option (CommManager Sender × Int) :=
  if block then do
    let groups ← grown mgr.groups mgr.groupCount ⟨groupName, none, 0, sendFunc⟩
    pure (⟨some groups, mgr.groupCount + 1⟩, mgr.groupCount)
  else some (mgr, -1)

/-- `comm_channel_add` -/
def commChannelAdd (mgr : CommManager Sender) (groupIdx portId : Int) (block : Bool) :
    Option (CommManager Sender × Int) :=
  if groupIdx ≥ mgr.groupCount then some (mgr, -1)
  else do
    let (place, group) ← groupAt mgr groupIdx
    if block then
      let channels ← grown group.channels group.channelCount portId
      let next ← writeGroup mgr place
        { group with channels := some channels, channelCount := group.channelCount + 1 }
      pure (next, portId)
    else pure (mgr, -1)

/-- The loop that looks for a port in a group. -/
def findPort (channels : Option (Block Int)) (portId : Int) : Nat → Nat → Option (Option Nat)
  | 0, _ => some none
  | remaining + 1, index => do
      let port ← loadFrom channels index
      if port = portId then pure (some index) else findPort channels portId remaining (index + 1)

/-- The array of a group that has lost a port: none for an empty group, and the old block if
there is no smaller one. -/
def shrunk (channels : Block Int) (count : Nat) (block : Bool) : Option (Option (Block Int)) :=
  if count = 0 then some none
  else if block then (memcpy (malloc Int count) channels count).map some
  else some (some channels)

/-- `comm_channel_remove` -/
def commChannelRemove (mgr : CommManager Sender) (groupIdx portId : Int) (block : Bool) :
    Option (CommManager Sender × Int) :=
  if groupIdx ≥ mgr.groupCount then some (mgr, -1)
  else do
    let (place, group) ← groupAt mgr groupIdx
    match ← findPort group.channels portId group.channelCount 0 with
    | none => pure (mgr, -1)
    | some index =>
        let channels ← group.channels
        let moved ← shiftDown (group.channelCount - 1 - index) index channels
        let channels ← shrunk moved (group.channelCount - 1) block
        let next ← writeGroup mgr place
          { group with channels := channels, channelCount := group.channelCount - 1 }
        pure (next, 0)

/-- The blocks in which data are handed to a send function. -/
def chunks (data : List Byte) : List (List Byte) :=
  if data = [] then [] else data.take 1056 :: chunks (data.drop 1056)
termination_by data.length
decreasing_by
  have positive := List.length_pos_iff.mpr (by assumption)
  simp only [List.length_drop]
  omega

/-- `comm_send_chunk`, as the calls of the send function that it makes. -/
def commSendChunk (mgr : CommManager Sender) (groupIdx channelIdx : Int) (data : List Byte) :
    Option (List (Sender × Int × List Byte)) :=
  if groupIdx ≥ mgr.groupCount then some []
  else do
    let (_, group) ← groupAt mgr groupIdx
    match group.sendFunc with
    | none => pure []
    | some sendFunc =>
        if group.channels.isNone ∨ group.channelCount = 0 then pure []
        else
          match ← findPort group.channels channelIdx group.channelCount 0 with
          | none => pure []
          | some _ => pure ((chunks data).map (fun chunk => (sendFunc, channelIdx, chunk)))

/-- What is asked of the registry. -/
inductive Event (Sender : Type) where
  | create (groupName : List Byte) (sendFunc : Option Sender) (block : Bool)
  | add (groupIdx portId : Int) (block : Bool)
  | remove (groupIdx portId : Int) (block : Bool)
  | send (groupIdx channelIdx : Int) (data : List Byte)

/-- What is answered: a code, or the calls of a send function. -/
inductive Reply (Sender : Type) where
  | code (value : Int)
  | sent (calls : List (Sender × Int × List Byte))

/-- The manager and the answer after an event, as long as every access is inside its array. -/
def step (state : Option (CommManager Sender × Reply Sender)) (event : Event Sender) :
    Option (CommManager Sender × Reply Sender) := do
  let (mgr, _) ← state
  match event with
  | .create groupName sendFunc block =>
      (commGroupCreate mgr groupName sendFunc block).map (fun next => (next.1, .code next.2))
  | .add groupIdx portId block =>
      (commChannelAdd mgr groupIdx portId block).map (fun next => (next.1, .code next.2))
  | .remove groupIdx portId block =>
      (commChannelRemove mgr groupIdx portId block).map (fun next => (next.1, .code next.2))
  | .send groupIdx channelIdx data =>
      (commSendChunk mgr groupIdx channelIdx data).map (fun calls => (mgr, .sent calls))

/-- A group with its ports in the order they were added. -/
structure Channels (Sender : Type) where
  name : List Byte
  sender : Option Sender
  ports : List Int

/-- The groups in the order they were created. -/
abbrev Registry (Sender : Type) := List (Channels Sender)

/-- The group with a number, if there is one. -/
def Registry.group (registry : Registry Sender) (groupIdx : Int) : Option (Channels Sender) :=
  if groupIdx < 0 then none else registry[groupIdx.toNat]?

/-- The registry after an event. A port is added behind the others, and the first of equal
ports is removed; without a block nothing is created or added. -/
def Registry.next (registry : Registry Sender) : Event Sender → Registry Sender
  | .create groupName sendFunc block =>
      if block then registry ++ [⟨groupName, sendFunc, []⟩] else registry
  | .add groupIdx portId block =>
      if block ∧ (registry.group groupIdx).isSome then
        registry.modify groupIdx.toNat
          (fun channels => { channels with ports := channels.ports ++ [portId] })
      else registry
  | .remove groupIdx portId _ =>
      if (registry.group groupIdx).isSome then
        registry.modify groupIdx.toNat
          (fun channels => { channels with ports := channels.ports.erase portId })
      else registry
  | .send _ _ _ => registry

/-- The calls of a send function that deliver data to a port: blocks of at most 1056 bytes, in
order, to that port, and no byte more or less. -/
def Delivers (sender : Sender) (port : Int) (data : List Byte)
    (calls : List (Sender × Int × List Byte)) : Prop :=
  (∀ call ∈ calls, call.1 = sender ∧ call.2.1 = port ∧ call.2.2.length ≤ 1056) ∧
    (calls.map (fun call => call.2.2)).flatten = data

/-- Which answer an event calls for. -/
def Answers (registry : Registry Sender) : Event Sender → Reply Sender → Prop
  | .create _ _ block, reply => reply = .code (if block then registry.length else -1)
  | .add groupIdx portId block, reply =>
      reply = .code (if block ∧ (registry.group groupIdx).isSome then portId else -1)
  | .remove groupIdx portId _, reply =>
      reply = .code
        (if (registry.group groupIdx).any (fun channels => portId ∈ channels.ports) then 0 else -1)
  | .send groupIdx channelIdx data, reply =>
      ∃ calls, reply = .sent calls ∧
        match (registry.group groupIdx).filter (fun channels => channelIdx ∈ channels.ports) with
        | none => calls = []
        | some channels =>
            match channels.sender with
            | none => calls = []
            | some sender => Delivers sender channelIdx data calls

/-- The registry, and the answers that the last event allows. -/
structure Ledger (Sender : Type) where
  registry : Registry Sender
  answers : Reply Sender → Prop

/-- The ledger after an event. -/
def Ledger.step (ledger : Ledger Sender) (event : Event Sender) : Ledger Sender :=
  ⟨ledger.registry.next event, Answers ledger.registry event⟩

/-- An array behind a pointer holds a list; only the empty list needs no block. -/
def HoldsArray (array : Option (Block α)) (values : List α) : Prop :=
  match array with
  | none => values = []
  | some block => Starts block values

/-- A group holds a name, a send function and a list of ports. -/
structure HoldsGroup (group : CommGroup Sender) (channels : Channels Sender) : Prop where
  name : group.groupName = channels.name
  sender : group.sendFunc = channels.sender
  count : group.channelCount = channels.ports.length
  ports : HoldsArray group.channels channels.ports

/-- The manager holds a registry. -/
def HoldsRegistry (mgr : CommManager Sender) (registry : Registry Sender) : Prop :=
  mgr.groupCount = registry.length ∧
    ∃ groups, HoldsArray mgr.groups groups ∧ List.Forall₂ HoldsGroup groups registry

/-- The state after some events holds the registry, and its last answer is one of those that
the last event calls for. -/
def Sound (pair : Option (CommManager Sender × Reply Sender) × Ledger Sender) : Prop :=
  ∃ mgr reply, pair.1 = some (mgr, reply) ∧ HoldsRegistry mgr pair.2.registry ∧
    pair.2.answers reply

/-- An event names no group with a negative number. -/
def Numbered : Event Sender → Prop
  | .create _ _ _ => True
  | .add groupIdx _ _ => 0 ≤ groupIdx
  | .remove groupIdx _ _ => 0 ≤ groupIdx
  | .send groupIdx _ _ => 0 ≤ groupIdx

/-- An element of the list that an array holds. -/
theorem HoldsArray.load {array : Option (Block α)} {front back : List α} {value : α}
    (holds : HoldsArray array (front ++ value :: back)) :
    loadFrom array front.length = some value := by
  cases array with
  | none => exact absurd holds (by simp [HoldsArray])
  | some block => exact Starts.load holds

/-- An array with one element more holds the longer list. -/
theorem HoldsArray.grown {array : Option (Block α)} {values : List α}
    (holds : HoldsArray array values) (value : α) :
    ∃ larger, grown array values.length value = some larger ∧
      Starts larger (values ++ [value]) := by
  have room : values.length < (malloc α (values.length + 1)).length := by simp [malloc]
  cases array with
  | none =>
    obtain rfl : values = [] := holds
    obtain ⟨stored, written, starts, -⟩ :=
      @Starts.push α (malloc α 1) [] (List.nil_prefix) (by simp [malloc]) value
    exact ⟨stored, by simpa [ChannelRegistry.grown] using written, starts⟩
  | some block =>
    obtain ⟨copy, copied, starts, same⟩ := Starts.memcpy holds (Nat.le_of_lt room)
    obtain ⟨stored, written, result, -⟩ := starts.push (same ▸ room) value
    exact ⟨stored, by simp [ChannelRegistry.grown, copied, written], result⟩

/-- A group of the registry is read, and written again. -/
theorem HoldsRegistry.group {mgr : CommManager Sender} {before behind : Registry Sender}
    {channels : Channels Sender} (holds : HoldsRegistry mgr (before ++ channels :: behind)) :
    ∃ group, groupAt mgr before.length = some (before.length, group) ∧
      HoldsGroup group channels ∧
      ∀ other changed, HoldsGroup other changed → ∃ next,
        writeGroup mgr before.length other = some next ∧
          HoldsRegistry next (before ++ changed :: behind) := by
  obtain ⟨count, groups, array, paired⟩ := holds
  have first := List.forall₂_take_append groups before _ paired
  have second := List.forall₂_drop_append groups before _ paired
  obtain ⟨group, rest, own, others, split⟩ := List.forall₂_cons_right_iff.mp second
  have whole : groups = groups.take before.length ++ group :: rest := by
    rw [← split, List.take_append_drop]
  generalize groups.take before.length = front at first whole
  have place : front.length = before.length := first.length_eq
  rw [whole] at array
  refine ⟨group, ?_, own, fun other changed holds => ?_⟩
  · have nonnegative : ¬(before.length : Int) < 0 := by omega
    have read := array.load
    rw [place] at read
    simp [groupAt, nonnegative, read]
  · cases block : mgr.groups with
    | none =>
      rw [block] at array
      exact absurd array (by simp [HoldsArray])
    | some groups =>
      rw [block] at array
      obtain ⟨stored, written, starts, -⟩ := Starts.store array other
      rw [place] at written
      refine ⟨⟨some stored, mgr.groupCount⟩, by simp [writeGroup, block, written], ?_, _, starts,
        List.rel_append first (List.Forall₂.cons holds others)⟩
      simpa using count

/-- The search for a port that the group does not have. -/
theorem find_missing {channels : Option (Block Int)} (portId : Int) (back : List Int)
    {front : List Int} (holds : HoldsArray channels (front ++ back)) (other : portId ∉ back) :
    findPort channels portId back.length front.length = some none := by
  induction back generalizing front with
  | nil => rfl
  | cons port rest inductionHypothesis =>
    have read := holds.load
    have apart : port ≠ portId := fun same => other (by simp [same])
    have regroup : front ++ port :: rest = (front ++ [port]) ++ rest := by simp
    rw [regroup] at holds
    have later := inductionHypothesis holds fun member => other (by simp [member])
    simpa [findPort, read, apart] using later

/-- The search for a port stops at the first one. -/
theorem find_found {channels : Option (Block Int)} (portId : Int) (middle : List Int)
    {front back : List Int} (holds : HoldsArray channels (front ++ (middle ++ portId :: back)))
    (other : portId ∉ middle) :
    findPort channels portId (middle ++ portId :: back).length front.length =
      some (some (front.length + middle.length)) := by
  induction middle generalizing front with
  | nil =>
    have read := holds.load
    simp [findPort, read]
  | cons port rest inductionHypothesis =>
    have read := holds.load
    have apart : port ≠ portId := fun same => other (by simp [same])
    have regroup : front ++ (port :: rest ++ portId :: back) =
        (front ++ [port]) ++ (rest ++ portId :: back) := by simp
    rw [regroup] at holds
    have later := inductionHypothesis holds fun member => other (by simp [member])
    have shift : front.length + (rest.length + 1) = front.length + 1 + rest.length := by omega
    simpa [findPort, read, apart, shift, Nat.add_assoc] using later

/-- A port is taken out of an array: the ports behind it move down, and the block stays if
there is no smaller one. -/
theorem shrunk_holds {channels : Block Int} {front back : List Int} {portId : Int}
    (starts : Starts channels (front ++ portId :: back)) (block : Bool) :
    ∃ moved kept, shiftDown back.length front.length channels = some moved ∧
      shrunk moved (front ++ back).length block = some kept ∧ HoldsArray kept (front ++ back) := by
  obtain ⟨moved, closed, result, -⟩ := starts.close_gap
  by_cases empty : (front ++ back).length = 0
  · exact ⟨moved, none, closed, if_pos empty, List.length_eq_zero_iff.mp empty⟩
  · cases block with
    | false => exact ⟨moved, some moved, closed, by rw [shrunk, if_neg empty]; rfl, result⟩
    | true =>
      obtain ⟨copy, copied, shorter, -⟩ :=
        result.memcpy (show (front ++ back).length ≤ (malloc Int (front ++ back).length).length by
          simp [malloc])
      exact ⟨moved, some copy, closed, by rw [shrunk, if_neg empty, if_pos rfl, copied]; rfl,
        shorter⟩

/-- A number that is not negative is behind the groups, or it is the number of one of them. -/
theorem group_cases (registry : Registry Sender) (groupIdx : Int) (numbered : 0 ≤ groupIdx) :
    ((registry.length : Int) ≤ groupIdx ∧ registry.group groupIdx = none) ∨
      ∃ before channels behind, registry = before ++ channels :: behind ∧
        groupIdx = before.length ∧ registry.group groupIdx = some channels := by
  obtain ⟨place, rfl⟩ := Int.eq_ofNat_of_zero_le numbered
  have nonnegative : ¬(place : Int) < 0 := by omega
  by_cases inside : place < registry.length
  · refine Or.inr ⟨registry.take place, registry[place], registry.drop (place + 1), ?_, ?_, ?_⟩
    · rw [← List.drop_eq_getElem_cons inside, List.take_append_drop]
    · rw [List.length_take_of_le (Nat.le_of_lt inside)]
    · simp [Registry.group, nonnegative, inside]
  · refine Or.inl ⟨by omega, ?_⟩
    have outside : registry[place]? = none := List.getElem?_eq_none (by omega)
    simp [Registry.group, nonnegative, outside]

/-- Only the group with the number is changed. -/
theorem modify_group (before behind : Registry Sender) (channels : Channels Sender)
    (change : Channels Sender → Channels Sender) :
    (before ++ channels :: behind).modify before.length change =
      before ++ change channels :: behind := by
  induction before with
  | nil => rfl
  | cons first rest inductionHypothesis => simpa using inductionHypothesis

/-- A group is created behind the others. -/
theorem create_sound {mgr : CommManager Sender} {registry : Registry Sender}
    (holds : HoldsRegistry mgr registry) (groupName : List Byte) (sendFunc : Option Sender)
    (block : Bool) :
    ∃ next code, commGroupCreate mgr groupName sendFunc block = some (next, code) ∧
      HoldsRegistry next (registry.next (.create groupName sendFunc block)) ∧
      Answers registry (.create groupName sendFunc block) (.code code) := by
  cases block with
  | false => exact ⟨mgr, -1, rfl, holds, rfl⟩
  | true =>
    obtain ⟨count, groups, array, paired⟩ := holds
    obtain ⟨larger, allocated, starts⟩ := array.grown ⟨groupName, none, 0, sendFunc⟩
    have size : groups.length = mgr.groupCount := paired.length_eq.trans count.symm
    rw [size] at allocated
    refine ⟨⟨some larger, mgr.groupCount + 1⟩, mgr.groupCount, ?_, ⟨?_, _, starts, ?_⟩, ?_⟩
    · simp [commGroupCreate, allocated]
    · simp [Registry.next, count]
    · exact List.rel_append paired (List.Forall₂.cons ⟨rfl, rfl, rfl, rfl⟩ .nil)
    · simp [Answers, count]

/-- A port is added behind the others of its group. -/
theorem add_sound {mgr : CommManager Sender} {registry : Registry Sender}
    (holds : HoldsRegistry mgr registry) (groupIdx portId : Int) (block : Bool)
    (numbered : 0 ≤ groupIdx) :
    ∃ next code, commChannelAdd mgr groupIdx portId block = some (next, code) ∧
      HoldsRegistry next (registry.next (.add groupIdx portId block)) ∧
      Answers registry (.add groupIdx portId block) (.code code) := by
  have count := holds.1
  rcases group_cases registry groupIdx numbered with
    ⟨beyond, none⟩ | ⟨before, channels, behind, rfl, rfl, here⟩
  · refine ⟨mgr, -1, ?_, by simpa [Registry.next, none] using holds, by simp [Answers, none]⟩
    simp [commChannelAdd, count, beyond]
  · have inside : ¬(before.length : Int) ≥ mgr.groupCount := by
      simp [count]
    obtain ⟨group, found, own, written⟩ := holds.group
    cases block with
    | false =>
      refine ⟨mgr, -1, ?_, by simpa [Registry.next] using holds, by simp [Answers]⟩
      simp [commChannelAdd, inside, found]
    | true =>
      obtain ⟨larger, allocated, starts⟩ := own.ports.grown portId
      rw [← own.count] at allocated
      obtain ⟨next, stored, result⟩ := written
        { group with channels := some larger, channelCount := group.channelCount + 1 }
        { channels with ports := channels.ports ++ [portId] }
        ⟨own.name, own.sender, by simp [own.count], starts⟩
      refine ⟨next, portId, ?_, ?_, by simp [Answers, here]⟩
      · simp only [commChannelAdd, inside, if_false, found, allocated, stored, if_true,
          Option.bind_eq_bind, Option.bind_some]
        rfl
      · simpa [Registry.next, here, modify_group] using result

/-- The first of the equal ports of a group is removed. -/
theorem remove_sound {mgr : CommManager Sender} {registry : Registry Sender}
    (holds : HoldsRegistry mgr registry) (groupIdx portId : Int) (block : Bool)
    (numbered : 0 ≤ groupIdx) :
    ∃ next code, commChannelRemove mgr groupIdx portId block = some (next, code) ∧
      HoldsRegistry next (registry.next (.remove groupIdx portId block)) ∧
      Answers registry (.remove groupIdx portId block) (.code code) := by
  have count := holds.1
  rcases group_cases registry groupIdx numbered with
    ⟨beyond, none⟩ | ⟨before, channels, behind, rfl, rfl, here⟩
  · refine ⟨mgr, -1, ?_, by simpa [Registry.next, none] using holds, by simp [Answers, none]⟩
    simp [commChannelRemove, count, beyond]
  · have inside : ¬(before.length : Int) ≥ mgr.groupCount := by
      simp [count]
    obtain ⟨group, found, own, written⟩ := holds.group
    by_cases member : portId ∈ channels.ports
    · obtain ⟨front, back, whole, other⟩ := List.eq_append_cons_of_mem member
      have ports := own.ports
      rw [whole] at ports
      have place : findPort group.channels portId group.channelCount 0 =
          some (some front.length) := by
        rw [own.count, whole]
        simpa using @find_found group.channels portId front [] back ports other
      cases array : group.channels with
      | none =>
        rw [array] at ports
        exact absurd ports (by simp [HoldsArray])
      | some block' =>
        rw [array] at ports place
        obtain ⟨moved, kept, closed, smaller, result⟩ := shrunk_holds ports block
        have size : group.channelCount - 1 = (front ++ back).length := by
          simp [own.count, whole]
        have gap : group.channelCount - 1 - front.length = back.length := by
          simp [size]
        rw [← size] at smaller
        have erased : channels.ports.erase portId = front ++ back := by
          rw [whole, List.erase_append_right _ other, List.erase_cons_head]
        obtain ⟨next, stored, holding⟩ := written
          { group with channels := kept, channelCount := group.channelCount - 1 }
          { channels with ports := channels.ports.erase portId }
          ⟨own.name, own.sender, by rw [erased, size], by rw [erased]; exact result⟩
        refine ⟨next, 0, ?_, ?_, by simp [Answers, here, member]⟩
        · simp only [commChannelRemove, inside, if_false, found, array, place, Option.bind_eq_bind,
            Option.bind_some, gap, closed, smaller, stored]
          rfl
        · simpa [Registry.next, here, modify_group] using holding
    · have place : findPort group.channels portId group.channelCount 0 = some none := by
        rw [own.count]
        exact @find_missing group.channels portId channels.ports [] own.ports member
      refine ⟨mgr, -1, ?_, ?_, by simp [Answers, here, member]⟩
      · simp only [commChannelRemove, inside, if_false, found, place, Option.bind_eq_bind,
          Option.bind_some]
        rfl
      · simpa [Registry.next, here, modify_group, List.erase_of_not_mem member] using holds

/-- Data are handed over in blocks of at most 1056 bytes. -/
theorem chunks_small (data : List Byte) : ∀ chunk ∈ chunks data, chunk.length ≤ 1056 := by
  induction data using chunks.induct with
  | case1 => simp [chunks]
  | case2 data nonempty inductionHypothesis =>
    rw [chunks, if_neg nonempty]
    refine List.forall_mem_cons.mpr ⟨?_, inductionHypothesis⟩
    exact List.length_take_le 1056 data

/-- The blocks are the data, in order. -/
theorem chunks_flatten (data : List Byte) : (chunks data).flatten = data := by
  induction data using chunks.induct with
  | case1 => simp [chunks]
  | case2 data nonempty inductionHypothesis =>
    rw [chunks, if_neg nonempty, List.flatten_cons, inductionHypothesis, List.take_append_drop]

/-- Data for a port are delivered by the send function of its group, if the port is there. -/
theorem send_sound {mgr : CommManager Sender} {registry : Registry Sender}
    (holds : HoldsRegistry mgr registry) (groupIdx channelIdx : Int) (data : List Byte)
    (numbered : 0 ≤ groupIdx) :
    ∃ calls, commSendChunk mgr groupIdx channelIdx data = some calls ∧
      Answers registry (.send groupIdx channelIdx data) (.sent calls) := by
  have count := holds.1
  rcases group_cases registry groupIdx numbered with
    ⟨beyond, none⟩ | ⟨before, channels, behind, rfl, rfl, here⟩
  · exact ⟨[], by simp [commSendChunk, count, beyond], [], rfl, by simp [none]⟩
  · have inside : ¬(before.length : Int) ≥ mgr.groupCount := by
      simp [count]
    obtain ⟨group, found, own, -⟩ := holds.group
    cases sender : channels.sender with
    | none =>
      refine ⟨[], ?_, [], rfl, ?_⟩
      · simp [commSendChunk, inside, found, own.sender, sender]
      · rw [here]
        by_cases member : channelIdx ∈ channels.ports
        · rw [Option.filter_some_pos (by simpa using member)]
          simp [sender]
        · rw [Option.filter_some_neg (by simpa using member)]
    | some sendFunc =>
      by_cases member : channelIdx ∈ channels.ports
      · obtain ⟨front, back, whole, other⟩ := List.eq_append_cons_of_mem member
        have ports := own.ports
        rw [whole] at ports
        have place : findPort group.channels channelIdx group.channelCount 0 =
            some (some front.length) := by
          rw [own.count, whole]
          simpa using @find_found group.channels channelIdx front [] back ports other
        have filled : ¬(group.channels.isNone = true ∨ group.channelCount = 0) := by
          rintro (missing | empty)
          · rw [Option.isNone_iff_eq_none.mp missing] at ports
            exact absurd ports (by simp [HoldsArray])
          · rw [own.count, whole] at empty
            simp at empty
        refine ⟨(chunks data).map (fun chunk => (sendFunc, channelIdx, chunk)), ?_, _, rfl, ?_⟩
        · simp only [commSendChunk, inside, if_false, found, own.sender, sender, filled, place,
            Option.bind_eq_bind, Option.bind_some]
          rfl
        · rw [here, Option.filter_some_pos (by simpa using member)]
          simp only [sender, Delivers, List.mem_map, List.map_map]
          refine ⟨?_, ?_⟩
          · rintro call ⟨chunk, inner, rfl⟩
            exact ⟨rfl, rfl, chunks_small data chunk inner⟩
          · have bytes : ((fun call : Sender × Int × List Byte => call.2.2) ∘
                fun chunk => (sendFunc, channelIdx, chunk)) = id := rfl
            rw [bytes, List.map_id, chunks_flatten]
      · have place : findPort group.channels channelIdx group.channelCount 0 = some none := by
          rw [own.count]
          exact @find_missing group.channels channelIdx channels.ports [] own.ports member
        refine ⟨[], ?_, [], rfl, by rw [here, Option.filter_some_neg (by simpa using member)]⟩
        simp only [commSendChunk, inside, if_false, found, own.sender, sender, place,
          Option.bind_eq_bind, Option.bind_some]
        split <;> rfl

/-- A negative number passes the check of every function that takes a group, and the access
behind it is in front of the array. -/
theorem negative_fails {mgr : CommManager Sender} {reply : Reply Sender} (event : Event Sender)
    (negative : ¬Numbered event) : step (some (mgr, reply)) event = none := by
  cases event with
  | create groupName sendFunc block => exact absurd True.intro negative
  | add groupIdx portId block =>
    have below : groupIdx < 0 := Int.not_le.mp negative
    have passes : ¬groupIdx ≥ (mgr.groupCount : Int) := by omega
    simp [step, commChannelAdd, passes, groupAt, below]
  | remove groupIdx portId block =>
    have below : groupIdx < 0 := Int.not_le.mp negative
    have passes : ¬groupIdx ≥ (mgr.groupCount : Int) := by omega
    simp [step, commChannelRemove, passes, groupAt, below]
  | send groupIdx channelIdx data =>
    have below : groupIdx < 0 := Int.not_le.mp negative
    have passes : ¬groupIdx ≥ (mgr.groupCount : Int) := by omega
    simp [step, commSendChunk, passes, groupAt, below]

/-- What each event preserves: a sound state stays sound exactly if the event names no group
with a negative number. -/
theorem step_sound (pair : Option (CommManager Sender × Reply Sender) × Ledger Sender)
    (event : Event Sender) (sound : Sound pair) :
    Numbered event ↔ Sound (both step Ledger.step pair event) := by
  obtain ⟨state, ledger⟩ := pair
  obtain ⟨mgr, reply, rfl, holds, -⟩ := sound
  constructor
  · intro numbered
    cases event with
    | create groupName sendFunc block =>
      obtain ⟨next, code, done, result, answer⟩ := create_sound holds groupName sendFunc block
      exact ⟨next, .code code, by simp [both, step, done], result, answer⟩
    | add groupIdx portId block =>
      obtain ⟨next, code, done, result, answer⟩ := add_sound holds groupIdx portId block numbered
      exact ⟨next, .code code, by simp [both, step, done], result, answer⟩
    | remove groupIdx portId block =>
      obtain ⟨next, code, done, result, answer⟩ :=
        remove_sound holds groupIdx portId block numbered
      exact ⟨next, .code code, by simp [both, step, done], result, answer⟩
    | send groupIdx channelIdx data =>
      obtain ⟨calls, done, answer⟩ := send_sound holds groupIdx channelIdx data numbered
      exact ⟨mgr, .sent calls, by simp [both, step, done], holds, answer⟩
  · rintro ⟨next, code, done, -⟩
    by_contra negative
    have failed : step (some (mgr, reply)) event = none := negative_fails event negative
    exact Option.some_ne_none _ (done.symm.trans failed)

/-- In every run, with any blocks refused, the manager holds the registry after each event,
every access is inside its array and every answer is what the event calls for, exactly when no
event names a group with a negative number. -/
theorem channel_registry_iff (events : List (Event Sender)) :
    (∀ event ∈ events, Numbered event) ↔
      ∀ first, first <+: events →
        Sound (run step (some (commMgrInit, .code 0)) first,
          run Ledger.step ⟨[], fun _ => True⟩ first) := by
  have start : Sound ((some (commMgrInit, .code 0), ⟨[], fun _ => True⟩) :
      Option (CommManager Sender × Reply Sender) × Ledger Sender) :=
    ⟨_, _, rfl, ⟨rfl, [], rfl, .nil⟩, True.intro⟩
  have runs := along_exact (both step Ledger.step) step_sound _ start events
  rw [along_events] at runs
  simpa only [run_both] using runs

/-- A port added to the group whose creation failed is written in front of the array. -/
theorem add_after_failed_create :
    ¬∀ (events first : List (Event Unit)), first <+: events →
        Sound (run step (some (commMgrInit, .code 0)) first,
          run Ledger.step ⟨[], fun _ => True⟩ first) := by
  intro all
  obtain ⟨mgr, reply, running, -⟩ :=
    all [.create [] (some ()) false, .add (-1) 2 true] _ (List.prefix_refl _)
  have lost : run step (some (commMgrInit, .code 0))
      [.create [] (some ()) false, .add (-1) 2 true] = none := rfl
  exact Option.some_ne_none _ (running.symm.trans lost)

end Pyrometer.ChannelRegistry
