import Pyrometer.BaseStream

/-!
# Which packets of a stream are dispatched and answered

A walk over the received bytes says at each position whether the loop stops,
steps over a block or dispatches one. It looks at the bytes alone: headers are
rewritten only behind it.

A damaged payload is stepped over as a whole. A damaged header is stepped over
without the payload behind it, so the walk goes on inside the damaged packet and
finds the next intact one only if the rest happens to split into rejected blocks.
An intact packet without payload is dispatched only if two more bytes follow.
Replies are in place for at most two neighboring packets.
-/

namespace Pyrometer.StreamDispatch

open ByteMemory Checksums BaseProtocol PacketRoundTrip UpgradeSession UpgradeSteps RunningOffsets
open BaseStream

/-- What the loop does with the bytes in front of it. -/
inductive Outcome where
  | stop
  | skip (length : Nat)
  | dispatch (length : Nat)
  deriving DecidableEq

/-- The outcome of one check. -/
def outcome (inbuf : Mem) (inlen : Nat) : Outcome :=
  match checkPacketBase .cleared inbuf inlen with
  | (true, parse) => .dispatch parse.instrLen.toNat
  | (false, parse) => if parse.error ≠ 1 then .stop else .skip parse.instrLen.toNat

/-- The length of the packet whose header starts a buffer. -/
def packetLength (inbuf : Mem) : Nat := sizeofHead + ((headAt inbuf).dataLen.toNat + 2)

/-- The checks of `check_packet_base` in their order, for a buffer whose length
fits its 16-bit counter. -/
theorem outcome_eq (inbuf : Mem) (inlen : Nat) (fits : inlen < 65536) :
    outcome inbuf inlen =
      if inlen < sizeofHead ∨ inbuf 0 ≠ protSop then .stop
      else if crc16RTU inbuf sizeofHead ≠ 0 then .skip sizeofHead
      else if inlen < packetLength inbuf then .stop
      else if (headAt inbuf).dataLen.toNat = 0 then .dispatch sizeofHead
      else if crc16RTU (window inbuf sizeofHead) ((headAt inbuf).dataLen.toNat + 2) ≠ 0 then
        .skip (packetLength inbuf)
      else .dispatch (packetLength inbuf) := by
  have nine : (BitVec.ofNat 16 sizeofHead).toNat = sizeofHead := rfl
  have bound : inlen - sizeofHead < (headAt inbuf).dataLen.toNat + 2 ↔
      inlen < sizeofHead ∨ inlen < packetLength inbuf := by
    unfold packetLength
    omega
  unfold outcome checkPacketBase
  by_cases short : inlen < sizeofHead
  · simp [short]
  by_cases other : inbuf 0 ≠ protSop
  · simp [short, other]
  by_cases sound : crc16RTU inbuf sizeofHead = 0#16
  case neg => simp [short, other, sound, nine]
  by_cases cut : inlen < packetLength inbuf
  · simp [short, other, sound, bound, cut]
  have counted : (BitVec.ofNat 16 sizeofHead + ((headAt inbuf).dataLen + 2)).toNat =
      packetLength inbuf := by
    unfold packetLength sizeofHead at *
    simp only [BitVec.toNat_add, BitVec.toNat_ofNat, BitVec.ofNat_eq_ofNat]
    omega
  have enough : ¬inlen - sizeofHead < (headAt inbuf).dataLen.toNat + 2 :=
    fun less => (bound.mp less).elim short cut
  by_cases empty : (headAt inbuf).dataLen.toNat = 0
  · rw [empty] at enough
    simpa [short, other, sound, enough, cut, empty] using nine
  by_cases whole : crc16RTU (window inbuf sizeofHead) ((headAt inbuf).dataLen.toNat + 2) = 0#16
  · simpa [short, other, sound, enough, cut, empty, whole, Nat.pos_of_ne_zero empty] using counted
  · simpa [short, other, sound, enough, cut, empty, whole, Nat.pos_of_ne_zero empty] using counted

/-- The header read from a buffer depends on its first nine bytes only. -/
theorem head_at_congr {left right : Mem} (same : Agree left right 0 sizeofHead) :
    headAt left = headAt right := by
  have part : ∀ start len, start + len ≤ sizeofHead → Agree left right start len :=
    fun start len inside => agree_mono same (by omega) (by omega)
  have byte : ∀ address, address < sizeofHead → left address = right address :=
    fun address inside => same address (by omega) (by omega)
  ext1
  · exact byte 0 (by decide)
  · exact load16_congr (part 1 2 (by decide))
  · exact byte 3 (by decide)
  · exact byte 4 (by decide)
  · exact load16_congr (part 5 2 (by decide))
  · exact load16_congr (part 7 2 (by decide))

/-- A buffer seen behind its header agrees where the whole agrees. -/
theorem window_congr {left right : Mem} {start len : Nat}
    (same : Agree left right 0 (start + len)) :
    Agree (window left start) (window right start) 0 len := by
  intro address _ high
  exact same (start + address) (by omega) (by omega)

/-- A check looks at the received bytes only. -/
theorem outcome_congr {left right : Mem} {inlen : Nat} (fits : inlen < 65536)
    (same : Agree left right 0 inlen) : outcome left inlen = outcome right inlen := by
  rw [outcome_eq left inlen fits, outcome_eq right inlen fits]
  by_cases short : inlen < sizeofHead
  · simp [short]
  have front : Agree left right 0 sizeofHead := agree_mono same (by omega) (by omega)
  have first : left 0 = right 0 := front 0 (by decide) (by decide)
  have length : packetLength left = packetLength right := by
    rw [packetLength, packetLength, head_at_congr front]
  rw [first, crc16_congr front, length, head_at_congr front]
  by_cases cut : inlen < packetLength right
  · simp [cut]
  have behind : Agree (window left sizeofHead) (window right sizeofHead) 0
      ((headAt right).dataLen.toNat + 2) :=
    window_congr (agree_mono same (by omega) (by unfold packetLength at cut; omega))
  rw [crc16_congr behind]

/-- A stretch of bytes that the loop steps over at once: nine bytes with a wrong
header checksum, or a packet with a wrong payload checksum. -/
def Rejected (block : List Byte) : Prop :=
  (block.length = sizeofHead ∧ ofList block 0 = protSop ∧
    crc16RTU (ofList block) sizeofHead ≠ 0) ∨ PayloadDamaged block

/-- A buffer begins with the bytes of its first part. -/
theorem front_agree (first second : List Byte) :
    Agree (ofList (first ++ second)) (ofList first) 0 first.length :=
  fun address _ high => of_list_left first second address (by omega)

/-- The first bytes of a buffer. -/
theorem take_agree (bytes : List Byte) (count : Nat) (inside : count ≤ bytes.length) :
    Agree (ofList bytes) (ofList (bytes.take count)) 0 count := by
  have whole := front_agree (bytes.take count) (bytes.drop count)
  rwa [List.take_append_drop, List.length_take, Nat.min_eq_left inside] at whole

/-- What the checks see of a packet at the front of a buffer. -/
theorem front_view (packet rest : List Byte) (whole : sizeofHead ≤ packet.length) :
    ofList (packet ++ rest) 0 = ofList packet 0 ∧
      crc16RTU (ofList (packet ++ rest)) sizeofHead = crc16RTU (ofList packet) sizeofHead ∧
      headAt (ofList (packet ++ rest)) = headAt (ofList packet) ∧
      ∀ len, sizeofHead + len ≤ packet.length →
        crc16RTU (window (ofList (packet ++ rest)) sizeofHead) len =
          crc16RTU (window (ofList packet) sizeofHead) len := by
  have same := front_agree packet rest
  have front : Agree (ofList (packet ++ rest)) (ofList packet) 0 sizeofHead :=
    agree_mono same (by omega) (by omega)
  refine ⟨front 0 (by decide) (by decide), crc16_congr front, head_at_congr front, ?_⟩
  intro len inside
  exact crc16_congr (window_congr (agree_mono same (by omega) (by omega)))

/-- A rejected stretch is at least as long as a header. -/
theorem rejected_length {block : List Byte} (rejected : Rejected block) :
    sizeofHead ≤ block.length := by
  rcases rejected with ⟨length, -⟩ | ⟨-, -, -, length, -⟩
  · exact Nat.le_of_eq length.symm
  · rw [length]
    exact Nat.le_add_right _ _

/-- The loop steps over a rejected stretch as a whole. -/
theorem rejected_outcome (block rest : List Byte) (rejected : Rejected block)
    (fits : (block ++ rest).length < 65536) :
    outcome (ofList (block ++ rest)) (block ++ rest).length = .skip block.length := by
  have whole := rejected_length rejected
  obtain ⟨first, header, head, payload⟩ := front_view block rest whole
  have enough : ¬(block ++ rest).length < sizeofHead := by
    rw [List.length_append]
    omega
  rw [outcome_eq _ _ fits, first, header, packetLength, head]
  rcases rejected with ⟨length, start, broken⟩ | ⟨start, sound, nonempty, length, broken⟩
  · rw [if_neg (fun either => either.elim enough (fun other => other start)), if_pos broken, length]
  · have long : ¬(block ++ rest).length <
        sizeofHead + ((headAt (ofList block)).dataLen.toNat + 2) := by
      rw [List.length_append]
      omega
    have nonzero : ¬(headAt (ofList block)).dataLen.toNat = 0 := by omega
    rw [payload _ (by omega), if_neg (fun either => either.elim enough (fun other => other start)),
      if_neg (not_not_intro sound), if_neg long, if_neg nonzero, if_pos broken, length]

/-- Whatever the loop steps over is a rejected stretch. -/
theorem outcome_skip (bytes : List Byte) (count : Nat) (fits : bytes.length < 65536)
    (skipped : outcome (ofList bytes) bytes.length = .skip count) :
    count ≤ bytes.length ∧ Rejected (bytes.take count) := by
  rw [outcome_eq _ _ fits] at skipped
  split_ifs at skipped with begins broken long empty spoilt
  · obtain rfl : sizeofHead = count := Outcome.skip.inj skipped
    have enough : sizeofHead ≤ bytes.length := by omega
    have front := take_agree bytes sizeofHead enough
    refine ⟨enough, Or.inl ⟨List.length_take_of_le enough, ?_, ?_⟩⟩
    · rw [← front 0 (by decide) (by decide)]
      by_contra other
      exact begins (Or.inr other)
    · rwa [← crc16_congr front]
  · obtain rfl : packetLength (ofList bytes) = count := Outcome.skip.inj skipped
    have enough : packetLength (ofList bytes) ≤ bytes.length := by omega
    have all := take_agree bytes _ enough
    have front : Agree (ofList bytes) (ofList (bytes.take (packetLength (ofList bytes)))) 0
        sizeofHead := agree_mono all (by omega) (by unfold packetLength; omega)
    have head := head_at_congr front
    refine ⟨enough, Or.inr ⟨?_, ?_, ?_, ?_, ?_⟩⟩
    · rw [← front 0 (by decide) (by decide)]
      by_contra other
      exact begins (Or.inr other)
    · rw [← crc16_congr front]
      exact not_not.mp broken
    · rw [← head]
      omega
    · rw [← head, List.length_take_of_le enough, packetLength]
    · have behind : Agree (window (ofList bytes) sizeofHead)
          (window (ofList (bytes.take (packetLength (ofList bytes)))) sizeofHead) 0
          ((headAt (ofList bytes)).dataLen.toNat + 2) := window_congr all
      rwa [← head, ← crc16_congr behind]

/-- A dispatched packet has at least a header and at most the received bytes. -/
theorem outcome_dispatch (inbuf : Mem) (inlen count : Nat) (fits : inlen < 65536)
    (dispatched : outcome inbuf inlen = .dispatch count) : sizeofHead ≤ count ∧ count ≤ inlen := by
  rw [outcome_eq _ _ fits] at dispatched
  split_ifs at dispatched with begins broken long empty spoilt
  · obtain rfl : sizeofHead = count := Outcome.dispatch.inj dispatched
    exact ⟨Nat.le_refl _, by omega⟩
  · obtain rfl : packetLength inbuf = count := Outcome.dispatch.inj dispatched
    exact ⟨Nat.le_add_right _ _, by omega⟩

/-- A packet carries a payload. -/
def hasPayload (bytes : List Byte) : Prop := (headAt (ofList bytes)).dataLen ≠ 0

instance (bytes : List Byte) : Decidable (hasPayload bytes) :=
  inferInstanceAs (Decidable (_ ≠ _))

/-- An intact packet is dispatched as a whole, unless it has no payload and fewer
than two bytes follow it. -/
theorem intact_outcome (packet rest : List Byte) (intact : Intact packet)
    (fits : (packet ++ rest).length < 65536) :
    outcome (ofList (packet ++ rest)) (packet ++ rest).length =
      if hasPayload packet ∨ 2 ≤ rest.length then .dispatch packet.length else .stop := by
  obtain ⟨whole, start, sound, body⟩ := intact
  obtain ⟨first, header, head, payload⟩ := front_view packet rest whole
  have enough : ¬(packet ++ rest).length < sizeofHead := by
    rw [List.length_append]
    omega
  rw [outcome_eq _ _ fits, first, header, packetLength, head,
    if_neg (fun either => either.elim enough (fun other => other start)),
    if_neg (not_not_intro sound), List.length_append]
  by_cases empty : (headAt (ofList packet)).dataLen = 0
  · rw [if_pos empty] at body
    have nothing : (headAt (ofList packet)).dataLen.toNat = 0 := by rw [empty]; rfl
    have plain : ¬hasPayload packet := not_not_intro empty
    by_cases follow : 2 ≤ rest.length
    · rw [nothing, if_neg (by omega), if_pos rfl, if_pos (Or.inr follow), body]
    · rw [nothing, if_pos (by omega), if_neg (fun either => either.elim plain follow)]
  · rw [if_neg empty] at body
    have nonzero : (headAt (ofList packet)).dataLen.toNat ≠ 0 :=
      fun zero => empty (BitVec.eq_of_toNat_eq zero)
    have carries : hasPayload packet ∨ 2 ≤ rest.length := Or.inl empty
    rw [payload _ (by omega), if_neg (by omega), if_neg nonzero, if_neg (not_not_intro body.2),
      if_pos carries, body.1]

/-- The walk over received bytes from a position on, and the positions at which it
dispatches. -/
inductive Walk : Nat → List Byte → List Nat → Prop where
  | stop (position : Nat) (bytes : List Byte)
      (stopped : outcome (ofList bytes) bytes.length = .stop) : Walk position bytes []
  | skip (position : Nat) (bytes : List Byte) (count : Nat) (found : List Nat)
      (skipped : outcome (ofList bytes) bytes.length = .skip count)
      (tail : Walk (position + count) (bytes.drop count) found) : Walk position bytes found
  | dispatch (position : Nat) (bytes : List Byte) (count : Nat) (found : List Nat)
      (dispatched : outcome (ofList bytes) bytes.length = .dispatch count)
      (tail : Walk (position + count) (bytes.drop count) found) :
      Walk position bytes (position :: found)

/-- Every buffer has a walk: each step takes bytes away. -/
theorem walk_exists (position : Nat) (bytes : List Byte) (fits : bytes.length < 65536) :
    ∃ found, Walk position bytes found := by
  induction sized : bytes.length using Nat.strong_induction_on generalizing position bytes with
  | _ size inductionHypothesis =>
    have nine : 0 < sizeofHead := by decide
    cases result : outcome (ofList bytes) bytes.length with
    | stop => exact ⟨[], .stop position bytes result⟩
    | skip count =>
      obtain ⟨inside, rejected⟩ := outcome_skip bytes count fits result
      have length := rejected_length rejected
      rw [List.length_take_of_le inside] at length
      have dropped : (bytes.drop count).length = size - count := by rw [List.length_drop, sized]
      obtain ⟨found, tail⟩ := inductionHypothesis (size - count) (by omega) (position + count)
        (bytes.drop count) (by omega) dropped
      exact ⟨found, .skip position bytes count found result tail⟩
    | dispatch count =>
      obtain ⟨low, high⟩ := outcome_dispatch _ _ count fits result
      have dropped : (bytes.drop count).length = size - count := by rw [List.length_drop, sized]
      obtain ⟨found, tail⟩ := inductionHypothesis (size - count) (by omega) (position + count)
        (bytes.drop count) (by omega) dropped
      exact ⟨position :: found, .dispatch position bytes count found result tail⟩

/-- A walk dispatches no position before its start. -/
theorem walk_forward {position : Nat} {bytes : List Byte} {found : List Nat}
    (walk : Walk position bytes found) : ∀ start ∈ found, position ≤ start := by
  induction walk with
  | stop => simp
  | skip position bytes count found skipped tail inductionHypothesis =>
    intro start member
    exact Nat.le_trans (Nat.le_add_right _ _) (inductionHypothesis start member)
  | dispatch position bytes count found dispatched tail inductionHypothesis =>
    intro start member
    rcases List.mem_cons.mp member with rfl | later
    · exact Nat.le_refl _
    · exact Nat.le_trans (Nat.le_add_right _ _) (inductionHypothesis start later)

/-- Bytes that split into rejected stretches. -/
inductive Passed : List Byte → Prop where
  | none : Passed []
  | block (block rest : List Byte) (rejected : Rejected block) (later : Passed rest) :
      Passed (block ++ rest)

/-- The loop stops at once: too few bytes for a header, no start character, or a
correct header whose packet is not all there. -/
def Halts (bytes : List Byte) : Prop :=
  bytes.length < sizeofHead ∨ ofList bytes 0 ≠ protSop ∨
    (crc16RTU (ofList bytes) sizeofHead = 0 ∧ bytes.length < packetLength (ofList bytes))

/-- Bytes in which the loop finds no packet. -/
inductive Quiet : List Byte → Prop where
  | halt (bytes : List Byte) (halts : Halts bytes) : Quiet bytes
  | block (block rest : List Byte) (rejected : Rejected block) (later : Quiet rest) :
      Quiet (block ++ rest)

/-- The stream can be walked: the damaged packets before each intact one split into
rejected stretches, an intact packet without payload is not the last one, and
nothing is found in the damaged packets at the end. The first argument are damaged
bytes already collected. -/
def Walkable : List Byte → List Piece → Prop
  | damaged, [] => Quiet damaged
  | damaged, .damaged bytes _ :: rest => Walkable (damaged ++ bytes) rest
  | damaged, .intact bytes _ :: rest =>
      Passed damaged ∧ (hasPayload bytes ∨ rest ≠ []) ∧ Walkable [] rest

/-- The loop stops exactly where one of its stopping checks fails. -/
theorem halts_iff (bytes : List Byte) (fits : bytes.length < 65536) :
    outcome (ofList bytes) bytes.length = .stop ↔ Halts bytes := by
  rw [outcome_eq _ _ fits, Halts, ← or_assoc]
  by_cases begins : bytes.length < sizeofHead ∨ ofList bytes 0 ≠ protSop
  · simp [begins]
  · by_cases sound : crc16RTU (ofList bytes) sizeofHead = 0#16
    · by_cases long : bytes.length < packetLength (ofList bytes)
      · simp [begins, sound, long]
      · simp only [begins, sound, long, if_false, false_or, and_false, iff_false, ne_eq,
          BitVec.ofNat_eq_ofNat, not_true_eq_false]
        split_ifs <;> simp
    · simp [begins, sound]

/-- Every packet of a stream has at least a header. -/
theorem piece_length (piece : Piece) : sizeofHead ≤ piece.bytes.length := by
  cases piece with
  | intact bytes formed => exact formed.1
  | damaged bytes broken =>
    rcases broken with header | payload
    · exact header.1
    · exact rejected_length (Or.inr payload)

/-- A walk goes through bytes that split into rejected stretches. -/
theorem passed_walk {damaged : List Byte} (passed : Passed damaged) (position : Nat)
    (rest : List Byte) (found : List Nat) (fits : (damaged ++ rest).length < 65536)
    (walk : Walk (position + damaged.length) rest found) :
    Walk position (damaged ++ rest) found := by
  induction passed generalizing position with
  | none => exact walk
  | block block later rejected _ inductionHypothesis =>
    rw [List.append_assoc] at fits ⊢
    have skipped := rejected_outcome block (later ++ rest) rejected fits
    refine .skip position _ block.length found skipped ?_
    rw [List.drop_left]
    refine inductionHypothesis (position + block.length) ?_ ?_
    · rw [List.length_append] at fits
      omega
    · rwa [List.length_append, ← Nat.add_assoc] at walk

/-- A walk finds nothing exactly in quiet bytes. -/
theorem quiet_iff (position : Nat) (bytes : List Byte) (fits : bytes.length < 65536) :
    Walk position bytes [] ↔ Quiet bytes := by
  constructor
  · intro walk
    generalize none : ([] : List Nat) = found at walk
    induction walk with
    | stop position bytes stopped => exact .halt bytes ((halts_iff bytes fits).mp stopped)
    | skip position bytes count found skipped tail inductionHypothesis =>
      obtain ⟨inside, rejected⟩ := outcome_skip bytes count fits skipped
      have later := inductionHypothesis (by rw [List.length_drop]; omega) none
      have whole := Quiet.block (bytes.take count) (bytes.drop count) rejected later
      rwa [List.take_append_drop] at whole
    | dispatch => exact absurd none (by simp)
  · intro quiet
    induction quiet generalizing position with
    | halt bytes halts => exact .stop position bytes ((halts_iff bytes fits).mpr halts)
    | block block rest rejected later inductionHypothesis =>
      refine .skip position _ block.length [] (rejected_outcome block rest rejected fits) ?_
      rw [List.drop_left]
      rw [List.length_append] at fits
      exact inductionHypothesis (position + block.length) (by omega)

/-- A walk that dispatches an intact packet first has passed the damaged bytes in
front of it. Induct on their number: a stretch stepped over cannot reach into the
packet, since nothing before the next position is dispatched later. -/
theorem walk_to_intact (damaged packet rest : List Byte) (position : Nat) (found : List Nat)
    (intact : Intact packet) (fits : (damaged ++ (packet ++ rest)).length < 65536)
    (walk : Walk position (damaged ++ (packet ++ rest)) ((position + damaged.length) :: found)) :
    Passed damaged ∧ (hasPayload packet ∨ 2 ≤ rest.length) ∧
      Walk (position + damaged.length + packet.length) rest found := by
  induction sized : damaged.length using Nat.strong_induction_on generalizing damaged position with
  | _ size inductionHypothesis =>
    subst sized
    generalize front : (position + damaged.length) :: found = positions at walk
    cases walk with
    | stop => exact absurd front (by simp)
    | skip _ _ count _ skipped tail =>
      subst front
      have near : position + count ≤ position + damaged.length :=
        walk_forward tail _ (by simp)
      have inside : count ≤ damaged.length := by omega
      obtain ⟨_, rejected⟩ := outcome_skip _ count fits skipped
      rw [List.take_append_of_le_length inside] at rejected
      have length := rejected_length rejected
      rw [List.length_take_of_le inside] at length
      have nine : 0 < sizeofHead := by decide
      have dropped : (damaged.drop count).length = damaged.length - count := List.length_drop ..
      rw [List.drop_append_of_le_length inside] at tail
      have same : position + count + (damaged.drop count).length = position + damaged.length := by
        omega
      rw [← same] at tail
      have small : (damaged.drop count ++ (packet ++ rest)).length < 65536 := by
        rw [List.length_append] at fits ⊢
        omega
      obtain ⟨passed, carries, later⟩ := inductionHypothesis (damaged.drop count).length
        (by omega) (damaged.drop count) (position + count) small tail rfl
      rw [same] at later
      refine ⟨?_, carries, later⟩
      have whole := Passed.block (damaged.take count) (damaged.drop count) rejected passed
      rwa [List.take_append_drop] at whole
    | dispatch _ _ count _ dispatched tail =>
      simp only [List.cons.injEq, Nat.add_eq_left] at front
      obtain ⟨nothing, rfl⟩ := front
      obtain rfl : damaged = [] := List.length_eq_zero_iff.mp nothing
      rw [List.nil_append] at dispatched tail fits
      rw [intact_outcome packet rest intact fits] at dispatched
      split_ifs at dispatched with carries
      obtain rfl : packet.length = count := Outcome.dispatch.inj dispatched
      rw [List.drop_left] at tail
      exact ⟨.none, carries, tail⟩

/-- The walk dispatches exactly the intact packets of a stream exactly when the
stream can be walked. Induct on the packets, collecting damaged bytes. -/
theorem walk_iff (pieces : List Piece) (damaged : List Byte) (position : Nat)
    (fits : (damaged ++ received pieces).length < 65536) :
    Walk position (damaged ++ received pieces) (starts (position + damaged.length) pieces) ↔
      Walkable damaged pieces := by
  induction pieces generalizing damaged position with
  | nil =>
    have bare : damaged ++ received [] = damaged := List.append_nil damaged
    rw [bare] at fits ⊢
    exact quiet_iff position damaged fits
  | cons piece rest inductionHypothesis =>
    have split : received (piece :: rest) = piece.bytes ++ received rest := List.flatMap_cons ..
    rw [split] at fits ⊢
    cases piece with
    | damaged bytes broken =>
      have sum : position + damaged.length + bytes.length =
          position + (damaged ++ bytes).length := by
        rw [List.length_append, Nat.add_assoc]
      simp only [Piece.bytes, starts, Walkable, sum, ← List.append_assoc] at fits ⊢
      exact inductionHypothesis (damaged ++ bytes) position fits
    | intact bytes formed =>
      simp only [Piece.bytes] at fits ⊢
      have two : 2 ≤ (received rest).length ↔ rest ≠ [] := by
        cases rest with
        | nil => simp [received]
        | cons next others =>
          have long := piece_length next
          unfold sizeofHead at long
          simp only [received, List.flatMap_cons, List.length_append, ne_eq, reduceCtorEq,
            not_false_eq_true, iff_true]
          omega
      have small : ([] ++ received rest).length < 65536 := by
        rw [List.nil_append]
        simp only [List.length_append] at fits
        omega
      have later := inductionHypothesis [] (position + damaged.length + bytes.length) small
      rw [List.nil_append, List.length_nil, Nat.add_zero] at later
      rw [starts, Walkable, ← later, ← two]
      constructor
      · exact walk_to_intact damaged bytes (received rest) position _ formed fits
      · rintro ⟨passed, carries, tail⟩
        refine passed_walk passed position _ _ fits ?_
        have inner : (bytes ++ received rest).length < 65536 := by
          rw [List.length_append] at fits
          exact Nat.lt_of_le_of_lt (Nat.le_add_left _ _) fits
        refine .dispatch _ _ bytes.length _ ?_ ?_
        · rw [intact_outcome bytes _ formed inner, if_pos carries]
        · rwa [List.drop_left]

section

variable (port : BitVec 32) (meanwhile : Nat → Upgrade → Upgrade)

/-- The loop ends where the check stops it. -/
theorem process_stop (passes : Nat) (loop : Loop)
    (stopped : outcome (window loop.inbuf loop.position) loop.inlen = .stop) :
    basePktProcess port meanwhile (passes + 1) loop = some loop := by
  rw [basePktProcess]
  split_ifs with finished
  · rfl
  · unfold outcome at stopped
    cases checked : checkPacketBase .cleared (window loop.inbuf loop.position) loop.inlen with
    | mk accepted parse =>
      rw [checked] at stopped
      cases accepted with
      | true => cases stopped
      | false =>
        by_cases other : parse.error ≠ 1
        · exact if_pos other
        · simp only [if_neg other] at stopped
          cases stopped

/-- Without received bytes the check stops. -/
theorem outcome_nothing (inbuf : Mem) : outcome inbuf 0 = .stop := rfl

/-- The loop goes on behind what the check steps over. -/
theorem process_skip (passes : Nat) (loop : Loop) (count : Nat)
    (skipped : outcome (window loop.inbuf loop.position) loop.inlen = .skip count) :
    basePktProcess port meanwhile (passes + 1) loop =
      basePktProcess port meanwhile passes
        { loop with position := loop.position + count, inlen := loop.inlen - count } := by
  have nonzero : ¬loop.inlen = 0 := by
    intro nothing
    rw [nothing, outcome_nothing] at skipped
    cases skipped
  rw [basePktProcess, if_neg nonzero]
  unfold outcome at skipped
  cases checked : checkPacketBase .cleared (window loop.inbuf loop.position) loop.inlen with
  | mk accepted parse =>
    rw [checked] at skipped
    cases accepted with
    | true => cases skipped
    | false =>
      by_cases other : parse.error ≠ 1
      · simp only [if_pos other] at skipped
        cases skipped
      · simp only [if_neg other] at skipped ⊢
        rw [Outcome.skip.inj skipped]

/-- The loop dispatches what the check accepts and goes on behind it. -/
theorem process_dispatch (loop : Loop) (count : Nat)
    (dispatched : outcome (window loop.inbuf loop.position) loop.inlen = .dispatch count) :
    ∃ parse, parse.instrLen.toNat = count ∧ ∀ passes,
      basePktProcess port meanwhile (passes + 1) loop =
        basePktProcess port meanwhile passes (dispatch port meanwhile parse loop) := by
  have nonzero : ¬loop.inlen = 0 := by
    intro nothing
    rw [nothing, outcome_nothing] at dispatched
    cases dispatched
  unfold outcome at dispatched
  cases checked : checkPacketBase .cleared (window loop.inbuf loop.position) loop.inlen with
  | mk accepted parse =>
    rw [checked] at dispatched
    cases accepted with
    | true =>
      refine ⟨parse, Outcome.dispatch.inj dispatched, fun passes => ?_⟩
      rw [basePktProcess, if_neg nonzero, checked]
    | false =>
      simp only at dispatched
      split_ifs at dispatched

/-- The loop's result does not depend on the bound. -/
theorem process_unique (left right : Nat) (loop one other : Loop)
    (first : basePktProcess port meanwhile left loop = some one)
    (second : basePktProcess port meanwhile right loop = some other) : one = other := by
  induction left generalizing right loop with
  | zero => cases first
  | succ left inductionHypothesis =>
    cases right with
    | zero => cases second
    | succ right =>
      rw [basePktProcess] at first second
      split_ifs at first second with finished
      · exact Option.some.inj (first.symm.trans second)
      · split at first
        · next parse checked =>
          simp only [checked] at second
          exact inductionHypothesis right _ first second
        · next parse checked =>
          simp only [checked] at second
          split_ifs at first second
          · exact Option.some.inj (first.symm.trans second)
          · exact inductionHypothesis right _ first second

/-- Behind some bytes of a buffer stand the others. -/
theorem contents_behind {inbuf : Mem} {position : Nat} {bytes : List Byte}
    (contents : Agree (window inbuf position) (ofList bytes) 0 bytes.length) (count : Nat) :
    Agree (window inbuf (position + count)) (ofList (bytes.drop count)) 0
      (bytes.drop count).length := by
  intro address _ high
  rw [List.length_drop] at high
  have same := contents (count + address) (by omega) (by omega)
  simp only [window, ofList, List.getD_eq_getElem?_getD, List.getElem?_drop] at same ⊢
  rwa [Nat.add_assoc]

/-- What the loop leaves after dispatching the packets at some positions. -/
structure Served (inbuf : Mem) (inlen : Nat) (loop final : Loop) (found : List Nat) : Prop where
  dispatched : final.dispatched = loop.dispatched ++ found
  outbuf : final.outbuf =
    place [] loop.cursor (replies port meanwhile inbuf inlen found loop.unit) loop.outbuf
  cursor : final.cursor =
    loop.cursor.after (replies port meanwhile inbuf inlen found loop.unit)
  reached : final.reached = max loop.reached
    (reach [] loop.cursor (replies port meanwhile inbuf inlen found loop.unit))

/-- One dispatched packet more is served. -/
theorem served_dispatch (inbuf : Mem) (inlen : Nat) (loop final : Loop) (parse : ParseBase)
    (found : List Nat)
    (packet : (⟨window loop.inbuf loop.position, loop.inlen, port⟩ : Packet) =
      packetAt inbuf inlen port loop.position)
    (later : Served port meanwhile inbuf inlen (dispatch port meanwhile parse loop) final found) :
    Served port meanwhile inbuf inlen loop final (loop.position :: found) := by
  obtain ⟨dispatched, outbuf, cursor, reached⟩ := later
  simp only [dispatch, packet] at dispatched outbuf cursor reached
  refine ⟨by rw [dispatched, List.append_assoc, List.singleton_append], outbuf, cursor, ?_⟩
  rw [reached, replies, reach, reach, reach, Nat.max_zero, Nat.max_assoc]

/-- The loop has some bytes of the received buffer in front of it, untouched. -/
structure Facing (inbuf : Mem) (inlen : Nat) (loop : Loop) (bytes : List Byte) : Prop where
  remaining : loop.inlen = bytes.length
  total : loop.position + bytes.length = inlen
  contents : Agree (window inbuf loop.position) (ofList bytes) 0 bytes.length
  untouched : ∀ address, loop.position ≤ address → loop.inbuf address = inbuf address

/-- The buffer in front of the loop is the received one. -/
theorem facing_view {inbuf : Mem} {inlen : Nat} {loop : Loop} {bytes : List Byte}
    (facing : Facing inbuf inlen loop bytes) :
    window loop.inbuf loop.position = window inbuf loop.position := by
  funext address
  exact facing.untouched _ (Nat.le_add_right _ _)

/-- The check sees the bytes in front of the loop. -/
theorem facing_outcome {inbuf : Mem} {inlen : Nat} {loop : Loop} {bytes : List Byte}
    (facing : Facing inbuf inlen loop bytes) (fits : bytes.length < 65536) :
    outcome (window loop.inbuf loop.position) loop.inlen = outcome (ofList bytes) bytes.length := by
  rw [facing_view facing, facing.remaining, outcome_congr fits facing.contents]

/-- The packet in front of the loop is that of the received buffer. -/
theorem facing_packet {inbuf : Mem} {inlen : Nat} {loop : Loop} {bytes : List Byte}
    (facing : Facing inbuf inlen loop bytes) :
    (⟨window loop.inbuf loop.position, loop.inlen, port⟩ : Packet) =
      packetAt inbuf inlen port loop.position := by
  have length : loop.inlen = inlen - loop.position := by
    have total := facing.total
    have remaining := facing.remaining
    omega
  rw [packetAt, facing_view facing, length]

/-- Behind some bytes the loop has the others in front of it. -/
theorem facing_behind {inbuf : Mem} {inlen : Nat} {loop : Loop} {bytes : List Byte}
    (facing : Facing inbuf inlen loop bytes) (count : Nat) (inside : count ≤ bytes.length)
    (next : Loop) (position : next.position = loop.position + count)
    (length : next.inlen = loop.inlen - count)
    (kept : ∀ address, loop.position + count ≤ address →
      next.inbuf address = loop.inbuf address) :
    Facing inbuf inlen next (bytes.drop count) := by
  have remaining := facing.remaining
  have total := facing.total
  refine ⟨?_, ?_, ?_, ?_⟩
  · rw [length, remaining, List.length_drop]
  · rw [position, List.length_drop]
    omega
  · rw [position]
    exact contents_behind facing.contents count
  · intro address low
    rw [position] at low
    rw [kept address low]
    exact facing.untouched address (by omega)

/-- The loop follows the walk. Induct on the walk; the bytes in front of the loop
stay untouched because a dispatched packet is at least as long as the header that
its handler rewrites. -/
theorem process_walk (inbuf : Mem) (inlen : Nat) {position : Nat} {bytes : List Byte}
    {found : List Nat} (walk : Walk position bytes found) (loop : Loop)
    (here : loop.position = position) (facing : Facing inbuf inlen loop bytes)
    (fits : bytes.length < 65536) :
    ∃ passes final, basePktProcess port meanwhile passes loop = some final ∧
      Served port meanwhile inbuf inlen loop final found := by
  induction walk generalizing loop with
  | stop position bytes stopped =>
    have seen := (facing_outcome facing fits).trans stopped
    refine ⟨1, loop, process_stop port meanwhile 0 loop seen, ?_⟩
    exact ⟨by simp, rfl, rfl, by simp [replies, reach]⟩
  | skip position bytes count found skipped tail inductionHypothesis =>
    have seen := (facing_outcome facing fits).trans skipped
    have inside := (outcome_skip bytes count fits skipped).1
    obtain ⟨passes, final, returned, served⟩ := inductionHypothesis
      { loop with position := loop.position + count, inlen := loop.inlen - count }
      (by rw [here]) (facing_behind facing count inside _ rfl rfl (fun _ _ => rfl))
      (by rw [List.length_drop]; omega)
    exact ⟨passes + 1, final, (process_skip port meanwhile passes loop count seen).trans returned,
      ⟨served.dispatched, served.outbuf, served.cursor, served.reached⟩⟩
  | dispatch position bytes count found dispatched tail inductionHypothesis =>
    have seen := (facing_outcome facing fits).trans dispatched
    obtain ⟨low, high⟩ := outcome_dispatch _ _ count fits dispatched
    obtain ⟨parse, length, goesOn⟩ := process_dispatch port meanwhile loop count seen
    have next : Facing inbuf inlen (dispatch port meanwhile parse loop) (bytes.drop count) := by
      refine facing_behind facing count high _ ?_ ?_ ?_
      · simp only [dispatch, length]
      · simp only [dispatch, length]
      · intro address above
        exact overlay_outside _ _ _ _ _ (Or.inr (by omega))
    obtain ⟨passes, final, returned, served⟩ := inductionHypothesis
      (dispatch port meanwhile parse loop) (by simp only [dispatch, here, length]) next
      (by rw [List.length_drop]; omega)
    refine ⟨passes + 1, final, (goesOn passes).trans returned, ?_⟩
    rw [← here]
    exact served_dispatch port meanwhile inbuf inlen loop final parse found
      (facing_packet port facing) served

end

/-- The payload part of a packet is at most as long as payload and checksum. -/
theorem data_part_length (header : ProtoBaseHead) (data : Option Mem) :
    (dataPart header data).length ≤ header.dataLen.toNat + 2 := by
  unfold dataPart
  split
  · simp
  · split_ifs <;> simp

/-- A built packet with at most fifteen payload bytes has 9 to 26 bytes. -/
theorem build_length (header : ProtoBaseHead) (parse : ParseBase)
    (small : header.dataLen.toNat ≤ sizeofNotify) :
    sizeofHead ≤ (protoBaseBuildPkt header parse).1.length ∧
      (protoBaseBuildPkt header parse).1.length ≤ 26 := by
  have head := head_bytes_length (sealHeader header)
  have nine : sizeofHead = 9 := rfl
  have fifteen : sizeofNotify = 15 := rfl
  by_cases error : parse.error ≠ 0
  · rw [build_with_error header parse error, List.length_append]
    simp
    omega
  · have built : (protoBaseBuildPkt header parse).1 =
        (sealHeader header).bytes ++ dataPart (sealHeader header) parse.data := by
      simp only [protoBaseBuildPkt, if_neg error]
      rfl
    have part := data_part_length (sealHeader header) parse.data
    have same : (sealHeader header).dataLen = header.dataLen := rfl
    rw [same] at part
    rw [built, List.length_append]
    omega

/-- A reply of at most 26 bytes that is there exactly if a flag says so. -/
def Fitting (reply : List Byte) (expected : Bool) : Prop :=
  visible reply = expected ∧ reply.length ≤ 26

/-- No reply fits where none is expected. -/
theorem fitting_none : Fitting [] false := ⟨rfl, by decide⟩

/-- A built packet with at most fifteen payload bytes fits where a reply is expected. -/
theorem fitting_built (header : ProtoBaseHead) (parse : ParseBase)
    (small : header.dataLen.toNat ≤ sizeofNotify) :
    Fitting (protoBaseBuildPkt header parse).1 true := by
  obtain ⟨low, high⟩ := build_length header parse small
  refine ⟨visible_true (fun nothing => ?_), high⟩
  rw [nothing] at low
  exact absurd low (by decide)

/-- The four handlers answer exactly the requests they accept. -/
theorem branch_fitting (packet : Packet) (unit : Upgrade) (instrLen : BitVec 16)
    (accepted : packet.accepted = true) :
    Fitting (upgradeBranchCmd packet.header (parsed packet instrLen) packet.data unit).reply
      (answered packet) := by
  have empty : (0 : BitVec 16).toNat ≤ sizeofNotify := by decide
  unfold upgradeBranchCmd
  by_cases notify : packet.header.cmd = commandNotify
  · have flag : answered packet = decide (packet.header.opType = protOpWr ∧
        packet.header.dataLen.toNat = sizeofNotify) := by
      simp [answered, isNotify, isFinish, isCancel, accepted, notify, commandNotify, commandFinish,
        commandCancel, Bool.beq_eq_decide_eq]
    rw [if_pos notify, flag, cmdUpNotify]
    split_ifs with request
    · rw [decide_eq_true request]
      exact fitting_built _ _ (Nat.le_of_eq request.2)
    · rw [decide_eq_false request]
      exact fitting_none
  rw [if_neg notify]
  by_cases data : packet.header.cmd = commandData
  · have flag : answered packet = false := by
      simp [answered, isNotify, isFinish, isCancel, data, commandNotify, commandData,
        commandFinish, commandCancel]
    have silent :
        (cmdUpData packet.header (parsed packet instrLen) packet.data unit).reply = [] := by
      unfold cmdUpData
      split_ifs <;> rfl
    rw [if_pos data, flag, silent]
    exact fitting_none
  rw [if_neg data]
  by_cases finish : packet.header.cmd = commandFinish
  · have flag : answered packet = decide (packet.header.opType = protOpRd ∧
        packet.header.dataLen.toNat = 5) := by
      simp [answered, isNotify, isFinish, isCancel, accepted, finish, commandNotify, commandFinish,
        commandCancel, Bool.beq_eq_decide_eq]
    rw [if_pos finish, flag, cmdUpFinish]
    split_ifs with request
    · rw [decide_eq_true request]
      exact fitting_built _ _ empty
    · rw [decide_eq_false request]
      exact fitting_none
  rw [if_neg finish]
  by_cases cancel : packet.header.cmd = commandCancel
  · have flag : answered packet = decide (packet.header.opType = protOpRd ∧
        packet.header.dataLen.toNat = 2) := by
      simp [answered, isNotify, isFinish, isCancel, accepted, cancel, commandNotify, commandFinish,
        commandCancel, Bool.beq_eq_decide_eq]
    rw [if_pos cancel, flag, cmdUpCancel]
    split_ifs with request
    · rw [decide_eq_true request]
      exact fitting_built _ _ empty
    · rw [decide_eq_false request]
      exact fitting_none
  have flag : answered packet = false := by
    simp [answered, isNotify, isFinish, isCancel, notify, finish, cancel]
  rw [if_neg cancel, flag]
  exact fitting_none

/-- An answered packet gets a reply of at most 26 bytes, any other packet none,
whatever the state of the unit. -/
theorem receive_fitting (packet : Packet) (unit : Upgrade) :
    Fitting (receive packet unit).reply (answered packet) := by
  cases accepted : packet.accepted with
  | false =>
    have flag : answered packet = false := by
      simp [answered, isNotify, isFinish, isCancel, accepted]
    rw [(receive_rejected unit accepted).2, flag]
    exact fitting_none
  | true =>
    obtain ⟨instrLen, dispatched⟩ := receive_accepted packet unit accepted
    rw [dispatched]
    exact branch_fitting packet unit instrLen accepted

section

variable (port : BitVec 32) (meanwhile : Nat → Upgrade → Upgrade)

/-- Which packets of a buffer get a reply. -/
def answers (inbuf : Mem) (inlen : Nat) (found : List Nat) : List Bool :=
  found.map (fun position => answered (packetAt inbuf inlen port position))

/-- The replies are there exactly for the answered packets. -/
theorem replies_visible (inbuf : Mem) (inlen : Nat) (found : List Nat) (unit : Upgrade) :
    (replies port meanwhile inbuf inlen found unit).map visible =
      answers port inbuf inlen found := by
  induction found generalizing unit with
  | nil => rfl
  | cons position rest inductionHypothesis =>
    rw [replies, List.map_cons, inductionHypothesis,
      (receive_fitting (packetAt inbuf inlen port position) unit).1]
    rfl

/-- No reply has more than 26 bytes. -/
theorem replies_short (inbuf : Mem) (inlen : Nat) (found : List Nat) (unit : Upgrade) :
    ∀ reply ∈ replies port meanwhile inbuf inlen found unit, reply.length ≤ 26 := by
  induction found generalizing unit with
  | nil => simp [replies]
  | cons position rest inductionHypothesis =>
    intro reply member
    rcases List.mem_cons.mp member with rfl | later
    · exact (receive_fitting _ unit).2
    · exact inductionHypothesis _ reply later

/-- Paired replies stay inside the output buffer. -/
theorem paired_inside (inbuf : Mem) (inlen : Nat) (found : List Nat) (unit : Upgrade)
    (paired : Paired (answers port inbuf inlen found)) :
    reach [] .start (replies port meanwhile inbuf inlen found unit) ≤ outbufSize := by
  rw [← replies_visible port meanwhile inbuf inlen found unit] at paired
  have length := paired_length _ paired 26 (replies_short port meanwhile inbuf inlen found unit)
  have size : outbufSize = 1056 := rfl
  by_cases none : (replies port meanwhile inbuf inlen found unit).flatten = []
  · rw [reach_empties _ _ _ (List.flatten_eq_nil_iff.mp none)]
    exact Nat.zero_le _
  · rw [reach_paired [] _ paired none, List.length_nil]
    omega

/-- The loop at its start has the received bytes in front of it. -/
theorem start_facing (inbuf outbuf : Mem) (bytes : List Byte) (unit : Upgrade)
    (contents : Agree inbuf (ofList bytes) 0 bytes.length) :
    Facing inbuf bytes.length (Loop.start inbuf bytes.length outbuf unit) bytes := by
  refine ⟨rfl, Nat.zero_add _, ?_, fun _ _ => rfl⟩
  intro address low high
  rw [window, show (Loop.start inbuf bytes.length outbuf unit).position = 0 from rfl, Nat.zero_add]
  exact contents address low high

/-- A stream of intact and damaged packets is processed as asked exactly when it can
be walked and at most two packets, neighbors among the intact ones, get a reply. -/
theorem stream_processed_iff (pieces : List Piece) (inbuf : Mem) (unit : Upgrade)
    (fits : (received pieces).length < 65536)
    (contents : Agree inbuf (ofList (received pieces)) 0 (received pieces).length) :
    Processes port meanwhile pieces inbuf unit ↔
      Walkable [] pieces ∧
        Paired (answers port inbuf (received pieces).length (starts 0 pieces)) := by
  have ways := walk_iff pieces [] 0 (by simpa using fits)
  rw [List.nil_append, List.length_nil, Nat.add_zero] at ways
  have flags := replies_visible port meanwhile inbuf (received pieces).length (starts 0 pieces) unit
  have texts := concatenates_iff []
    (replies port meanwhile inbuf (received pieces).length (starts 0 pieces) unit)
    (fun _ _ _ _ => by simp)
  rw [flags] at texts
  rw [← ways, ← texts]
  constructor
  · intro processes
    obtain ⟨found, walk⟩ := walk_exists 0 (received pieces) fits
    have follows : ∀ outbuf, found = starts 0 pieces ∧
        toList (place [] .start (replies port meanwhile inbuf (received pieces).length found unit)
          outbuf) 0
          (Cursor.start.after
            (replies port meanwhile inbuf (received pieces).length found unit)).counted =
        (replies port meanwhile inbuf (received pieces).length (starts 0 pieces) unit).flatten := by
      intro outbuf
      obtain ⟨passes, final, returned, dispatched, read, _⟩ := processes outbuf
      obtain ⟨bound, last, ended, served⟩ := process_walk port meanwhile inbuf _ walk _ rfl
        (start_facing inbuf outbuf (received pieces) unit contents) fits
      obtain rfl := process_unique port meanwhile _ _ _ _ _ returned ended
      rw [served.outbuf, served.cursor] at read
      exact ⟨served.dispatched.symm.trans dispatched, read⟩
    obtain rfl := (follows inbuf).1
    refine ⟨walk, fun outbuf => ?_⟩
    have read := (follows outbuf).2
    rwa [after_counted, show Cursor.start.counted = 0 from rfl, Nat.zero_add] at read
  · rintro ⟨walk, concatenates⟩ outbuf
    obtain ⟨passes, final, returned, served⟩ := process_walk port meanwhile inbuf _ walk _ rfl
      (start_facing inbuf outbuf (received pieces) unit contents) fits
    refine ⟨passes, final, returned, served.dispatched, ?_, ?_⟩
    · rw [served.outbuf, served.cursor, after_counted]
      show toList _ 0 (0 + _) = _
      rw [Nat.zero_add]
      exact concatenates outbuf
    · have inside := paired_inside port meanwhile inbuf _ _ unit (texts.mp concatenates)
      rw [served.reached]
      exact Nat.max_le.mpr ⟨Nat.zero_le _, inside⟩

end

/-- The bytes of a cancellation as the host sends it. -/
def cancelBytes : List Byte := [0x23, 1, 0, 53, 0, 2, 0, 0x06, 0xBF, 0, 0, 0x01, 0xB0]

/-- A cancellation is well formed. -/
theorem cancel_bytes_intact : Intact cancelBytes := by
  unfold Intact
  decide +kernel

/-- A stream of some cancellations. -/
def cancellations (count : Nat) : List Piece :=
  List.replicate count (.intact cancelBytes cancel_bytes_intact)

/-- The output of the loop for a stream of cancellations, into a cleared buffer. -/
def cancellationsOutput (count : Nat) : Option (List Byte) :=
  (basePktProcess 0 (fun _ unit => unit) (count + 1)
    (Loop.start (ofList (received (cancellations count))) (received (cancellations count)).length
      (fun _ => 0) erasedUnit)).map (fun final => toList final.outbuf 0 final.cursor.counted)

/-- Two cancellations are dispatched and answered as asked. -/
theorem two_cancellations_processed :
    Processes 0 (fun _ unit => unit) (cancellations 2) (ofList (received (cancellations 2)))
      erasedUnit :=
  (stream_processed_iff 0 (fun _ unit => unit) (cancellations 2) _ erasedUnit (by decide)
    (fun _ _ _ => rfl)).mpr
      ⟨⟨.none, Or.inl (by decide +kernel), .none, Or.inl (by decide +kernel),
        .halt [] (Or.inl (by decide))⟩, by decide +kernel⟩

/-- The reply to the third of three cancellations is stored nine bytes too far. -/
theorem three_cancellations_misplaced :
    ¬Processes 0 (fun _ unit => unit) (cancellations 3) (ofList (received (cancellations 3)))
      erasedUnit := by
  intro processes
  obtain ⟨passes, final, returned, _, read, _⟩ := processes (fun _ => 0)
  have output : cancellationsOutput 3 ≠ some (replies 0 (fun _ unit => unit)
      (ofList (received (cancellations 3))) (received (cancellations 3)).length
      (starts 0 (cancellations 3)) erasedUnit).flatten := by
    decide +kernel
  have ended : ∃ last, basePktProcess 0 (fun _ unit => unit) 4
      (Loop.start (ofList (received (cancellations 3))) (received (cancellations 3)).length
        (fun _ => 0) erasedUnit) = some last :=
    Option.isSome_iff_exists.mp (by decide +kernel)
  obtain ⟨last, ends⟩ := ended
  obtain rfl := process_unique 0 _ _ _ _ _ _ returned ends
  rw [cancellationsOutput, ends, Option.map_some, read] at output
  exact output rfl

end Pyrometer.StreamDispatch
