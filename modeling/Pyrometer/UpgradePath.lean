import Pyrometer.BootInstallation
import Pyrometer.UpgradeIntegrity
import Pyrometer.UpgradeStaging

/-!
# An upgrade from the host to the application area

A session of the application stages the image and its finish request writes the record; the
device is reset, and the bootloader of the next power-up finds both. Here the two programs meet:
the flash that the handler leaves is the flash that the installer starts from.

The image has whole words, since neither program moves what is left of a last one. Nothing
happens between the finish request and the reset.
-/

namespace Pyrometer.UpgradePath

open ByteMemory Checksums NorFlash FlashController FirmwareInfo BootInstaller BootInstallation
open BaseProtocol UpgradeSession UpgradeSteps UpgradeIntegrity UpgradeStaging Runs

/-- The flash that the bootloader finds after a finish request. -/
def handedOver (finish : Packet) (unit : Upgrade) : Mem := (step unit (.packet finish)).fmc.mem

/-- A host that announces the image it has: its split, its checksum, its product tag, and a finish
request for it. -/
structure Honest (notice finish : Packet) (image : Mem) : Prop where
  proper : ProperSplit notice
  whole : imageSize notice % 4 = 0
  fits : imageSize notice ≤ appAreaSize
  checksum : calculateCrc32 image (asInt (load32 notice.data 3)) .big = load32 notice.data 11
  tagged : toList image (0x400 + 12) specalProductNum.length = specalProductNum
  tagInside : 0x400 + 12 + specalProductNum.length ≤ imageSize notice
  asks : isFinish finish = true
  release : sameRelease finish notice = true
  count : load16 finish.data 3 = load16 notice.data 9

/-- A range of what is seen through a pointer is a range behind it. -/
theorem to_list_window (memory : Mem) (base start len : Nat) :
    toList (window memory base) start len = toList memory (base + start) len := by
  simp only [toList, window, Nat.add_assoc]

/-- The announced size as the length of a checksum. -/
theorem announced_length {notice : Packet} (fits : imageSize notice ≤ appAreaSize) :
    (asInt (load32 notice.data 3)).toNat = imageSize notice := by
  have area : appAreaSize = 196608 := by decide
  rw [asInt, BitVec.toInt_eq_toNat_of_lt]
  · rfl
  · have bound : (load32 notice.data 3).toNat = imageSize notice := rfl
    omega

/-- A checksum over whole words of the image depends on the image only. -/
theorem image_checksum {notice : Packet} {left right : Mem} (whole : imageSize notice % 4 = 0)
    (fits : imageSize notice ≤ appAreaSize) (agreed : Agree left right 0 (imageSize notice)) :
    calculateCrc32 left (asInt (load32 notice.data 3)) .big =
      calculateCrc32 right (asInt (load32 notice.data 3)) .big := by
  apply calculate_crc32_congr
  rw [announced_length fits]
  exact agree_mono agreed (Nat.le_refl 0) (by omega)

/-- A payload with the version of the notification has the version of its record. -/
theorem release_version {info : FwInfo} {notice packet : Packet}
    (announced : Announced info notice) (release : sameRelease packet notice = true) :
    sameVersion packet.data info = true := by
  simp only [sameRelease, toList, List.range_succ, List.range_zero, List.nil_append,
    List.cons_append, List.map_cons, List.map_nil, Nat.zero_add, beq_iff_eq, List.cons.injEq,
    and_true] at release
  obtain ⟨major, minor, serial⟩ := release
  simp [sameVersion, announced.majorVer, announced.minorVer, announced.serialVer, major, minor,
    serial]

/-- The finish request of a staged image completes its session and passes. -/
theorem staged_passes {notice finish : Packet} {image : Mem} {unit : Upgrade}
    (honest : Honest notice finish image) (staging : Staging notice image unit)
    (all : AllStored unit) : (verdict finish unit).2 = ugStateCheckPass := by
  have staged := (all_stored_staged honest.proper staging all).1
  have complete : completes finish unit := by
    refine ⟨?_, all⟩
    rw [finishMatches, release_version staging.announced honest.release, staging.announced.segCount,
      honest.count, Bool.true_and, beq_self_eq_true]
  apply (verdict_passes_iff finish unit complete).mpr
  constructor
  · rw [stagedCrc, staging.announced.imgSize, staging.announced.imgCrc32, ← honest.checksum]
    exact (image_checksum honest.whole honest.fits staged).symm
  · have last := honest.tagInside
    have same : toList (window unit.fmc.mem fwDataAddr) (0x400 + 12) specalProductNum.length =
        toList image (0x400 + 12) specalProductNum.length :=
      to_list_congr (agree_mono staged (Nat.zero_le _) (by omega))
    have place : productTagAddr = fwDataAddr + (0x400 + 12) := by decide
    rw [tagMatches, place, ← to_list_window, same, honest.tagged, beq_self_eq_true]

/-- A finish request is the only thing that its packet is taken for. -/
theorem finish_step {finish : Packet} (asks : isFinish finish = true) (unit : Upgrade) :
    step unit (.packet finish) = finished finish unit := by
  have command := finish_command asks
  rw [step, receive_unit]
  simp [isNotify, storesSegment, command, commandNotify, commandData, commandFinish, asks]

/-- The flash that is handed over: the record on its page, and the rest as it was. -/
theorem handed_over_contents {finish : Packet} {unit : Upgrade} (asks : isFinish finish = true)
    (sound : unit.fmc.Sound) (address : Nat) :
    handedOver finish unit address =
      if fwInfoAddr ≤ address ∧ address < fwInfoAddr + sizeofFwInfo then
        ofList (finishedInfo finish unit).bytes (address - fwInfoAddr)
      else if fwInfoAddr ≤ address ∧
        address < fwInfoAddr + fmcPageSize * pageCount sizeofFwInfo then erased
      else unit.fmc.mem address := by
  have saved : (step unit (.packet finish)).fmc = unit.fmc.perform
      (writePlan fwInfoAddr sizeofFwInfo (ofList (finishedInfo finish unit).bytes)) := by
    rw [finish_step asks]
    exact congrArg Prod.snd
      (gdf_write_data_by_page_sound fwInfoAddr sizeofFwInfo
        (ofList (finishedInfo finish unit).bytes) unit.fmc sound info_page_writable)
  rw [handedOver, saved, Device.perform_mem, write_plan_contents]

/-- The bootloader reads the record that the request wrote. -/
theorem handed_over_record {finish : Packet} {unit : Upgrade} (asks : isFinish finish = true)
    (sound : unit.fmc.Sound) :
    Agree (window (handedOver finish unit) fwInfoAddr) (ofList (finishedInfo finish unit).bytes) 0
      sizeofFwInfo := by
  intro offset _ inside
  rw [Nat.zero_add] at inside
  rw [window, handed_over_contents asks sound, if_pos ⟨Nat.le_add_right _ _, by omega⟩,
    Nat.add_sub_cancel_left]

/-- The record page does not reach the staged image. -/
theorem handed_over_staged {finish : Packet} {unit : Upgrade} (asks : isFinish finish = true)
    (sound : unit.fmc.Sound) : staged (handedOver finish unit) = window unit.fmc.mem fwDataAddr := by
  funext offset
  have pages : fwInfoAddr + fmcPageSize * pageCount sizeofFwInfo ≤ fwDataAddr := by decide
  have record : fwInfoAddr + sizeofFwInfo ≤ fwDataAddr := by decide
  rw [staged, window, handed_over_contents asks sound, if_neg (by omega), if_neg (by omega)]
  rfl

/-- The bootloader accepts what a passing request handed over. -/
theorem handed_over_accepted {notice finish : Packet} {image : Mem} {unit : Upgrade}
    (honest : Honest notice finish image) (staging : Staging notice image unit)
    (all : AllStored unit) :
    Accepted (handedOver finish unit) ∧ imageBytes (handedOver finish unit) = imageSize notice := by
  have record := handed_over_record honest.asks staging.sound
  have info : storedInfo (handedOver finish unit) = finishedInfo finish unit := by
    rw [storedInfo, fw_info_at_congr record, fw_info_at_bytes]
  have size : (storedInfo (handedOver finish unit)).imgSize = load32 notice.data 3 := by
    rw [info]
    exact staging.announced.imgSize
  have staged := (all_stored_staged honest.proper staging all).1
  refine ⟨⟨?_, ?_, ?_, ?_⟩, congrArg BitVec.toNat size⟩
  · rw [info_crc_congr record, info]
    exact info_crc_own _ _
  · intro nothing
    have present := honest.tagInside
    have zero : imageSize notice = 0 := by
      rw [imageSize, ← size, nothing]
      rfl
    omega
  · rw [info]
    exact staged_passes honest staging all
  · have source := handed_over_staged honest.asks staging.sound
    have crc : (storedInfo (handedOver finish unit)).imgCrc32 = load32 notice.data 11 := by
      rw [info]
      exact staging.announced.imgCrc32
    rw [size, crc, ← honest.checksum]
    apply image_checksum honest.whole honest.fits
    change Agree (BootInstallation.staged (handedOver finish unit)) image 0 (imageSize notice)
    rw [source]
    exact staged

/-- Safe deliveries of a session lead to a staging area that holds the stored segments. -/
theorem session_staging {notice : Packet} {image : Mem} {unit : Upgrade}
    (proper : ProperSplit notice) (sound : unit.fmc.Sound) (events : List Event)
    (delivered : ∀ event ∈ events, Delivers notice image event)
    (met : Along watch (StoredSafely notice) (opened notice unit) events) :
    Staging notice image (run watch (opened notice unit) events).unit := by
  have preserved : ∀ watched event, Staging notice image watched.unit →
      Delivers notice image event ∧ StoredSafely notice watched event →
      Staging notice image (watch watched event).unit :=
    fun watched event staging condition =>
      step_staging proper watched event staging condition.1 condition.2
  exact along_invariant watch preserved (opened notice unit) (opened_staging notice image unit sound)
    events (along_and watch (opened notice unit) events delivered met)

/-- An upgrade from end to end. On a flash that refuses nothing, let a session deliver the segments
of an honestly announced image of whole words in any way whose stored segments are safe, with any
interleaving of the task, until all are stored. Then the finish request resets the device, the
bootloader installs exactly the image, also when it is cut off at any operation before it rewrites
the record, and the boot after that finds nothing to do. -/
theorem upgrade_installs_image {notice finish : Packet} {image : Mem} {unit : Upgrade}
    (honest : Honest notice finish image) (sound : unit.fmc.Sound) (events : List Event)
    (delivered : ∀ event ∈ events, Delivers notice image event)
    (met : Along watch (StoredSafely notice) (opened notice unit) events)
    (all : AllStored (run watch (opened notice unit) events).unit) :
    setsReset finish (run watch (opened notice unit) events).unit = true ∧
      ∃ flash, flash = handedOver finish (run watch (opened notice unit) events).unit ∧
        (boot flash).1 = .upgraded ∧
        Agree (window (boot flash).2.mem appEntryAddr) image 0 (imageSize notice) ∧
        (∀ operations, BeforeRewrite flash operations →
          (boot (cutFlash flash operations)).1 = .upgraded ∧
          Agree (window (boot (cutFlash flash operations)).2.mem appEntryAddr) image 0
            (imageSize notice)) ∧
        (boot (boot flash).2.mem).1 = .notUpgraded ∧
        (boot (boot flash).2.mem).2.mem = (boot flash).2.mem := by
  have staging := session_staging honest.proper sound events delivered met
  generalize (run watch (opened notice unit) events).unit = unit at all staging ⊢
  have passed := staged_passes honest staging all
  obtain ⟨accepted, size⟩ := handed_over_accepted honest staging all
  have fits : Fits (handedOver finish unit) := by
    rw [Fits, size]
    exact honest.fits
  have whole : imageBytes (handedOver finish unit) % 4 = 0 := by
    rw [size]
    exact honest.whole
  have verified : Verified (handedOver finish unit) :=
    (verified_iff accepted fits).mpr fun rest => absurd whole rest
  have success : (boot (handedOver finish unit)).1 = .upgraded := by
    rw [boot_verified accepted fits verified]
  have safe : TailSafe (handedOver finish unit) := by
    intro _ index inside
    rw [whole] at inside
    exact absurd inside (Nat.not_lt_zero index)
  have arrived : Agree (window (boot (handedOver finish unit)).2.mem appEntryAddr) image 0
      (imageSize notice) := by
    have copied := (arrived_iff accepted fits).mpr safe success
    rw [size, handed_over_staged honest.asks staging.sound] at copied
    exact agree_trans copied (all_stored_staged honest.proper staging all).1
  refine ⟨(sets_reset_iff finish unit).mpr ⟨honest.asks, passed⟩, _, rfl, success, arrived, ?_, ?_⟩
  · intro operations before
    obtain ⟨ending, _, contents⟩ := boot_resumes accepted fits operations before
    rw [ending, contents]
    exact ⟨success, arrived⟩
  · rw [boot_rejected (boot_retires accepted fits success)]
    exact ⟨rfl, rfl⟩

/-- An image of 1048 bytes that are zero but for the product tag. -/
def taggedImage : Mem := fun offset =>
  if 0x40C ≤ offset then ofList specalProductNum (offset - 0x40C) else 0

/-- Its notification, as one segment. -/
def taggedNotice : Packet :=
  wirePacket commandNotify protOpWr
    ([1, 0, 0] ++ bytes32 1048 ++ bytes16 1048 ++ bytes16 1 ++ bytes32 2688050250)

/-- The payload of its segment. -/
def taggedPayload : Mem := fun address =>
  if address < sizeofReply then ofList ([1, 0, 0] ++ bytes16 0 ++ bytes16 1048) address
  else taggedImage (address - sizeofReply)

/-- The packet of its segment. -/
def taggedSegment : Packet :=
  let header : ProtoBaseHead := ⟨protSop, 1, commandData, protOpWr, 1055, 0⟩
  let sealed := { header with crc := crc16RTU (ofList header.bytes) (sizeofHead - 2) }
  let crc := crc16RTU taggedPayload 1055
  ⟨fun address =>
    if address < sizeofHead then ofList sealed.bytes address
    else if address < sizeofHead + 1055 then taggedPayload (address - sizeofHead)
    else ofList [byteOf crc 0, byteOf crc 1] (address - sizeofHead - 1055),
    sizeofHead + 1055 + 2, 0⟩

/-- Its finish request. -/
def taggedFinish : Packet := wirePacket commandFinish protOpRd ([1, 0, 0] ++ bytes16 1)

/-- The session in which the segment arrives after the erase. -/
def taggedSession : List Event := [.task, .task, .task, .packet taggedSegment]

set_option maxRecDepth 10000 in
/-- The notification has the checksum of the image. -/
theorem tagged_checksum :
    calculateCrc32 taggedImage (asInt (load32 taggedNotice.data 3)) .big =
      load32 taggedNotice.data 11 := by
  decide +kernel

/-- The image is announced honestly. -/
theorem tagged_honest : Honest taggedNotice taggedFinish taggedImage := by
  refine ⟨?_, by decide +kernel, by decide +kernel, tagged_checksum, by decide +kernel,
    by decide +kernel, by decide +kernel, by decide +kernel, by decide +kernel⟩
  unfold ProperSplit
  decide +kernel

/-- The segment carries the image. -/
theorem tagged_genuine : Genuine taggedNotice taggedImage taggedSegment := by
  refine ⟨by decide +kernel, by decide +kernel, ?_⟩
  intro offset inside
  have length : (replySegLen taggedSegment.data).toNat = 1048 := by decide +kernel
  have begin : segmentStart taggedNotice taggedSegment = 0 := by decide +kernel
  rw [length] at inside
  have place : sizeofHead + (sizeofReply + offset) < sizeofHead + 1055 := by
    unfold sizeofReply
    omega
  rw [begin, Nat.zero_add]
  simp only [Packet.data, taggedSegment, window, if_neg (Nat.not_lt_of_le (Nat.le_add_right _ _)),
    if_pos place, Nat.add_sub_cancel_left, taggedPayload]

/-- This image is installed. -/
theorem upgrade_installs_image_tagged :
    (boot (handedOver taggedFinish
        (run watch (opened taggedNotice erasedUnit) taggedSession).unit)).1 = .upgraded ∧
      Agree (window (boot (handedOver taggedFinish
        (run watch (opened taggedNotice erasedUnit) taggedSession).unit)).2.mem appEntryAddr)
        taggedImage 0 1048 := by
  have size : imageSize taggedNotice = 1048 := by decide +kernel
  have delivered : ∀ event ∈ taggedSession, Delivers taggedNotice taggedImage event := by
    intro event member
    simp only [taggedSession, List.mem_cons, List.not_mem_nil, or_false] at member
    rcases member with rfl | rfl | rfl | rfl
    · exact True.intro
    · exact True.intro
    · exact True.intro
    · exact ⟨by decide +kernel, fun _ _ => tagged_genuine⟩
  have met : Along watch (StoredSafely taggedNotice) (opened taggedNotice erasedUnit)
      taggedSession := by
    have length : (replySegLen taggedSegment.data).toNat = 1048 := by decide +kernel
    refine ⟨True.intro, True.intro, True.intro, fun _ => ⟨?_, by decide +kernel,
      by decide +kernel, by decide +kernel, ?_⟩, True.intro⟩
    · unfold Pending
      decide +kernel
    · intro offset low high
      rw [length] at low high
      exact absurd high (Nat.not_lt_of_le low)
  have all : AllStored (run watch (opened taggedNotice erasedUnit) taggedSession).unit := by
    unfold AllStored
    decide +kernel
  obtain ⟨_, flash, same, success, arrived, _⟩ := upgrade_installs_image tagged_honest
    (Device.healthy_sound _) taggedSession delivered met all
  rw [size] at arrived
  rw [same] at success arrived
  exact ⟨success, arrived⟩

end Pyrometer.UpgradePath
