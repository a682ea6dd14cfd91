import Pyrometer.ParameterLayout

/-!
# The default parameters

`SYS_DEF_PARA` of `para_cfg.c` as the bytes the compiler places in flash: little
endian, packed, floating-point constants in their IEEE encodings, members
without an initializer zero. The magic word and the checksum words have no
initializer.
-/

namespace Pyrometer.DefaultParameters

open ByteMemory ParameterLayout

/-- A little-endian number of `count` bytes. -/
def le (count value : Nat) : List Byte :=
  (List.range count).map (fun position => BitVec.ofNat 8 (value / 256 ^ position))

/-- A character array of `count` bytes, filled up with zeros. -/
def text (count : Nat) (characters : List Nat) : List Byte :=
  characters.map (BitVec.ofNat 8) ++ List.replicate (count - characters.length) 0

/-- An array of 32-bit members. -/
def words (values : List Nat) : List Byte := values.flatMap (le 4)

/-- A `coef_t`: a 64-bit base and an 8-bit exponent, both signed. -/
def coef (base exponent : Int) : List Byte :=
  le 8 (base % 2 ^ 64).toNat ++ le 1 (exponent % 2 ^ 8).toNat

/-- `dev`: address 0, name "LED102_V3", serial "2312140001", panel lock 'U'. -/
def devDefault : List Byte :=
  le 1 0 ++ text 17 [0x4C, 0x45, 0x44, 0x31, 0x30, 0x32, 0x5F, 0x56, 0x33] ++
    text 11 [0x32, 0x33, 0x31, 0x32, 0x31, 0x34, 0x30, 0x30, 0x30, 0x31] ++ le 1 0 ++ le 1 0x55

/-- `port`: full duplex '4', format "8N1", 115200 baud, debug level "0". -/
def portDefault : List Byte :=
  le 1 0x34 ++ text 4 [0x38, 0x4E, 0x31] ++ le 4 115200 ++ text 32 [0x30] ++ le 1 0

/-- `gain`: switching thresholds in microvolts, the double factors 83, 69, 80
and 68, and the step counts. -/
def gainDefault : List Byte :=
  words [3250000, 3250000, 3220000, 3220000, 3220000, 3220000] ++
    (le 8 0x4054C00000000000 ++ le 8 0x4051400000000000 ++ le 8 0x4054000000000000 ++
      le 8 0x4051000000000000) ++
    words [3, 10, 5, 5, 5, 5]

/-- `ana`: 4 to 20 mA over 800 to 2800 degrees, alarm currents 2.5 and 21 mA. -/
def anaDefault : List Byte :=
  le 1 0x34 ++
    words [0x452F0000, 0x44480000, 0x40200000, 0x41A80000, 0x4A189680, 0x4BA037A0, 1000000,
      19500000, 1000000, 10000000] ++
    le 2 1000

/-- `adc`: full power, continuous mode, internal clock, default offsets. -/
def adcDefault : List Byte := [2, 0, 0, 0] ++ words [8388050, 8388050, 0]

/-- `temp`: unit 'C', range 800 to 2800, unit emissivity, transmissivity, slope
and calibration gains, ratio mode, voltage threshold 15000. -/
def tempDefault : List Byte :=
  le 1 0x43 ++
    words [25, 0, 0x3F800000, 0x3F800000, 0x3F800000, 0x3F800000, 0x3F800000, 0x44480000,
      0x452F0000] ++
    le 8 0 ++ words [0, 0, 0, 0] ++
    words [0, 0, 0, 0, 0, 0, 2, 0x3F800000, 0x3F800000, 15000] ++ le 1 0 ++
    words [0x3F800000, 0x3F800000, 0x3F800000, 0, 0, 0]

/-- `net`: reconnect after 3 s, receive timeout 5 s, port 6363, and the local
address 192.168.042.132, the remote one 192.168.042.100, the mask and the
gateway 192.168.042.001 in dotted form. -/
def netDefault : List Byte :=
  words [3, 5, 0, 6363] ++
    text 16 [0x31, 0x39, 0x32, 0x2E, 0x31, 0x36, 0x38, 0x2E, 0x30, 0x34, 0x32, 0x2E, 0x31, 0x33,
      0x32] ++
    text 16 [0x31, 0x39, 0x32, 0x2E, 0x31, 0x36, 0x38, 0x2E, 0x30, 0x34, 0x32, 0x2E, 0x31, 0x30,
      0x30] ++
    text 16 [0x32, 0x35, 0x35, 0x2E, 0x32, 0x35, 0x35, 0x2E, 0x32, 0x35, 0x35, 0x2E, 0x30, 0x30,
      0x30] ++
    text 16 [0x31, 0x39, 0x32, 0x2E, 0x31, 0x36, 0x38, 0x2E, 0x30, 0x34, 0x32, 0x2E, 0x30, 0x30,
      0x31]

/-- `record`: the log interval. -/
def recordDefault : List Byte := le 4 5000

/-- First-layer weights of the temperature network. -/
def effectiveW1 : List Nat := [
  0x40A4AB95, 0x40A9B236, 0xBF8455E3, 0x40C40D69, 0xBFA5ABAB, 0x3F989079, 0xC05D291D, 0x4056DD32,
  0x4099C66E, 0xC0981065, 0x40AD923B, 0x3F8D95FF, 0x409B7886, 0x3EC56FD1, 0x40655C04, 0xBFACC660,
  0x4097A792, 0x3F5F97F5, 0xC02290B5, 0x3FC0C49C, 0xC019A054, 0xBF315C52, 0xC01CC8E6, 0x407B244E,
  0xC0A5C014, 0xC0530EE5, 0xBFA63E4C, 0xC07EDD28, 0x3F782678, 0xC0B76C84, 0x40BA9B50, 0xC0AEB6F3,
  0x40A5BAD6, 0x3F7BC534, 0xC0004462, 0x4069B48B, 0x3F6BC4F2, 0x40ADA0EE, 0x3F0C4A16, 0xBFEE8C80,
  0x4016CFBD, 0xBFCD17DA, 0x401F1A83, 0x40C57F1A, 0x405A9B35, 0xC03B6E10, 0x40458215, 0x3F733192,
  0x4027CB8D, 0xC0760615, 0xC0B20ABA, 0xC02D1D57, 0xC08FE201, 0x40A38408, 0x3FD9D9B7, 0x401C96B7,
  0x40243E77, 0xBDD282B2, 0x40A95E7D, 0xC09339B1, 0x3EBE76CD, 0xC087CD99, 0x40016820, 0xC0024133]

/-- First-layer biases of the temperature network. -/
def effectiveB1 : List Nat := [
  0xC06B8210, 0xC089E7F1, 0x3FC987AB, 0xC0A8C2EE, 0x3EDC110A, 0xBFC52E30, 0x4070D361, 0xC0165101,
  0xC0382182, 0x40429AB6, 0xC0A805B1, 0xBFD43690, 0xC08E10E6, 0x3E46DAE1, 0xC01D1501, 0x4000DB2F,
  0xC08786C1, 0xBFAFC9EF, 0x401EA2D6, 0xBFCC6F72, 0x401B0929, 0x3E9FBDC7, 0x4023BF15, 0xC079DE72,
  0x406ECEC3, 0x404007DD, 0x3F965C60, 0x404036D2, 0xBE7C1D7B, 0x40A640AF, 0xC0A86A55, 0x4079B071,
  0xC049B59E, 0xBF8EEB36, 0x3FA1E65A, 0xC077109B, 0xBFA6A7ED, 0xC07BA019, 0xBF152815, 0x3F406474,
  0xBFDB0E7E, 0x3F165330, 0xC0345100, 0xC0A5BF33, 0xC0652FD6, 0x3FE19E58, 0xBFAEF32D, 0xBF12ECDE,
  0xBFE83AEA, 0x4008EB9E, 0x406CC70B, 0x3FF50730, 0x4074A2A4, 0xC09C8987, 0xBFE3B9DF, 0xC0225FBC,
  0xBFF7DE28, 0xBE94ADB2, 0xC0831D7E, 0x4043B02A, 0xBF7B0DB6, 0x403627E2, 0xC001A68E, 0x3F531A18]

/-- Second-layer weights of the temperature network. -/
def effectiveW2 : List Nat := [
  0x42ED1A4D, 0x42140044, 0x41827BFF, 0x4284665C, 0xC28057C6, 0x4251DF81, 0xC28F796A, 0x41B1C85A,
  0xC16BB6AA, 0xC2B2033B, 0x42900753, 0xC1846FD2, 0x429B2047, 0xC28FDC02, 0x42DB7352, 0xC2DEE9AB,
  0x41DE9913, 0x417D402D, 0xC0DFA3B3, 0x4274B3A1, 0x41BA7675, 0xC27055BD, 0xC1E8876D, 0x42AD2BF6,
  0xC2232E16, 0xC2D5DE22, 0x41C4B87B, 0xC2BA478A, 0xC2D6BEE5, 0xC1A50912, 0x428CB349, 0xC2917488,
  0x42EEC333, 0x41853AD8, 0x40A291D3, 0xC285925F, 0x41FE7E96, 0x422E549E, 0xC1D1C45D, 0x42822FC1,
  0x429E7004, 0xC227C2A4, 0xC219744B, 0x423070E5, 0x42294DB6, 0xC0C7FCA5, 0xC107344B, 0x41A78E28,
  0xC0D85C43, 0x428E8DEA, 0x42028D48, 0xC2CAC88C, 0xC1DEBF19, 0x42A29AF8, 0x415BF95F, 0xC1D8020A,
  0x42CA009C, 0x421F5593, 0x42A9CBDA, 0xC219DD64, 0xC1A0934C, 0xC178E255, 0x42E062AF, 0xC1B4BA36]

/-- Second-layer bias of the temperature network. -/
def effectiveB2 : List Nat := [0x44E01E79]

/-- Both segments of a logarithmic fit: no threshold and two coefficients. -/
def logSegment (slope intercept : Int) : List Byte :=
  le 8 0 ++ coef slope (-19) ++ coef intercept (-18)

/-- `algo`: two identical segments of the logarithmic fit for each channel, one
polynomial of fourteen terms, and the network. -/
def algoDefault : List Byte :=
  logSegment (-651905818493707) 651905818493707 ++ logSegment (-651905818493707) 651905818493707 ++
    logSegment (-753280579290912) 729182522345416 ++
    logSegment (-753280579290912) 729182522345416 ++
    (le 1 14 ++ le 4 0 ++ coef 158252892724310 (-8) ++ coef (-221546080998633) (-7) ++
      coef 139736955204198 (-6) ++ coef (-526150785636936) (-6) ++ coef 132101803699095 (-5) ++
      coef (-233815522865189) (-5) ++ coef 300487436456394 (-5) ++ coef (-284197599553157) (-5) ++
      coef 198005705736088 (-5) ++ coef (-100459445611889) (-5) ++ coef 361062560771199 (-6) ++
      coef (-871201356289380) (-7) ++ coef 126577776890338 (-7) ++ coef (-836901428276062) (-9) ++
      coef 0 0) ++
    List.replicate 140 0 ++
    (words effectiveW1 ++ words effectiveB1 ++ words effectiveW2 ++ words effectiveB2)

/-- `burst`: 50 ms, format "NS", list "T,WT,NT,WV,NV,I,ST,B,SW,SN", polling 'P'. -/
def burstDefault : List Byte :=
  le 2 50 ++ text 3 [0x4E, 0x53] ++
    text 40 [0x54, 0x2C, 0x57, 0x54, 0x2C, 0x4E, 0x54, 0x2C, 0x57, 0x56, 0x2C, 0x4E, 0x56, 0x2C,
      0x49, 0x2C, 0x53, 0x54, 0x2C, 0x42, 0x2C, 0x53, 0x57, 0x2C, 0x53, 0x4E] ++
    le 1 0x50

/-- `alarm`: relay mode 2 and the default thresholds. -/
def alarmDefault : List Byte :=
  words [2, 0x447A0000, 0x3F800000, 0x42820000, 0x3F800000, 90, 90, 0x3C23D70A, 0x3F666666]

/-- `video`: aiming point (100, 100), exposure mode 8 at level -7. -/
def videoDefault : List Byte :=
  words [0x42C80000, 0x42C80000] ++ le 1 8 ++ words [0xC0E00000, 0] ++ [2, 3] ++
    words [0, 0, 1] ++ [0, 1] ++ le 2 10 ++ le 4 2000

/-- `filter`: a buffer of 25 and no holding times. -/
def filterDefault : List Byte := le 2 25 ++ words [0, 0, 0, 0] ++ le 1 0

/-- `heater`: target 50 degrees and the controller gains 12, 0.03f and 70. -/
def heaterDefault : List Byte :=
  le 4 0x42480000 ++ le 8 0x4028000000000000 ++ le 8 0x3F9EB851E0000000 ++ le 8 0x4051800000000000

/-- The default bytes of each group. -/
def groupDefault : ParaType → List Byte
  | .dev => devDefault
  | .port => portDefault
  | .gain => gainDefault
  | .ana => anaDefault
  | .adc => adcDefault
  | .temp => tempDefault
  | .net => netDefault
  | .record => recordDefault
  | .algo => algoDefault
  | .burst => burstDefault
  | .alarm => alarmDefault
  | .video => videoDefault
  | .filter => filterDefault
  | .heater => heaterDefault

/-- `SYS_DEF_PARA`. -/
def sysDefPara : Mem :=
  ofList (List.replicate 4 0 ++ ParaType.all.flatMap groupDefault ++ List.replicate 28 0)

/-- Every group's default has exactly the size of its structure, so the table is
laid out at the offsets of `PARA_INFO_TBL`. -/
theorem group_default_length (group : ParaType) : (groupDefault group).length = group.size := by
  cases group <;> decide +kernel

/-- The defaults of a group lie where the group does. -/
theorem group_default_place (group : ParaType) :
    Agree (window sysDefPara group.offset) (ofList (groupDefault group)) 0 group.size := by
  have split : ParaType.all =
      ParaType.all.take group.index ++ group :: ParaType.all.drop (group.index + 1) := by
    cases group <;> rfl
  have before : (List.replicate 4 (0 : Byte) ++
      (ParaType.all.take group.index).flatMap groupDefault).length = group.offset := by
    simp only [List.length_append, List.length_replicate, List.length_flatMap,
      group_default_length, ParaType.offset]
  have parts : List.replicate 4 (0 : Byte) ++ ParaType.all.flatMap groupDefault ++
      List.replicate 28 0 =
        (List.replicate 4 (0 : Byte) ++ (ParaType.all.take group.index).flatMap groupDefault) ++
          (groupDefault group ++
            ((ParaType.all.drop (group.index + 1)).flatMap groupDefault ++
              List.replicate 28 0)) := by
    conv_lhs => rw [split]
    simp only [List.flatMap_append, List.flatMap_cons, List.append_assoc]
  intro address _ inside
  rw [sysDefPara, parts, ← before, of_list_right]
  exact of_list_left _ _ _ (by rw [group_default_length]; omega)

/-- The default device address. -/
theorem default_addr : sysDefPara devAddr = 0 := by decide

end Pyrometer.DefaultParameters
