import Pyrometer.CText
import Pyrometer.ParameterLayout

/-!
# The command table of `proto_char_cfg.c`

A row of `CMD_TBL` names a command, its parameter group and properties, the rule
its data are checked with, and the object that holds its value. Objects lie in
`sys_para`, which is packed, or in `sys_state`, whose members are aligned to their
size; `unsigned` constants of a rule are numbers and floating-point constants are
encodings. The type of a rule's data is that of its format.
-/

namespace Pyrometer.CommandTable

open ByteMemory BinaryFloats CText ParameterLayout

/-- `cmd_id_e`. -/
inductive CmdId where
  | cmdDa | cmdId | cmdDn | cmdDv | cmdRs | cmdPr | cmdSc | cmdUl | cmdJ | cmdDev | cmdDb | cmdDp
  | cmdBr | cmdCf | cmdPm | cmdNm | cmdNh | cmdWm | cmdWh | cmdNup | cmdWup | cmdNlm | cmdWlm
  | cmdNlh | cmdWlh | cmdGdn | cmdGcn | cmdAm | cmdAl | cmdAh | cmdOal | cmdOah | cmdOi | cmdIl
  | cmdIh | cmdAt | cmdOv | cmdVl | cmdVh | cmdAc | cmdDm | cmdGa | cmdOfn | cmdOfw | cmdNv
  | cmdWv | cmdOnv | cmdOwv | cmdSn | cmdSw | cmdSm | cmdU | cmdDl | cmdDh | cmdM | cmdNc | cmdWc
  | cmdE | cmdNs | cmdWs | cmdS | cmdSi | cmdOn | cmdOw | cmdVv | cmdAtc | cmdTtco | cmdCa
  | cmdTcls | cmdTclr | cmdTchs | cmdTchr | cmdWtga | cmdWtof | cmdNtga | cmdNtof | cmdRtga
  | cmdRtof | cmdT | cmdRt | cmdSt | cmdI | cmdNt | cmdWt | cmdB | cmdTn | cmdNi | cmdNr
  | cmdDhcp | cmdIp | cmdNy | cmdGw | cmdMa | cmdMac | cmdPo | cmdRi | cmdRq | cmdRo | cmdRn
  | cmdAp | cmdNwa | cmdNwb | cmdNb | cmdV | cmdBs | cmdBc | cmdBf | cmdRa | cmdTon | cmdTof
  | cmdIon | cmdIof | cmdDr | cmdAon | cmdAof | cmdEm | cmdEv | cmdBn | cmdBl | cmdGn | cmdVi
  | cmdVm | cmdVf | cmdVt | cmdVn | cmdAx | cmdAy | cmdRc | cmdAn | cmdC | cmdF | cmdAa | cmdP
  | cmdFm | cmdCt | cmdKp | cmdKi | cmdKd
  deriving DecidableEq, Repr

/-- `prop_e`. -/
inductive PropE where
  | p | b | s | n | m | i | l
  deriving DecidableEq, Repr

/-- The two structures that commands read and write. -/
inductive Region where
  | para
  | state
  deriving DecidableEq, Repr

/-- An object: its structure, its offset there and its size. -/
structure Target where
  region : Region
  offset : Nat
  size : Nat
  deriving DecidableEq, Repr

/-- `sizeof(sys_state_t)`. -/
def sizeofSysState : Nat := 4788

/-- Size of a structure. -/
def Region.size : Region → Nat
  | .para => sizeofSysPara
  | .state => sizeofSysState

/-- The members of `sys_para` and `sys_state` that commands point at or assign. Array
elements of the narrow and wide band and of the ratio have names of their own. -/
inductive Member where
  | devAddr | devSn | devName | devInfo | sysOpReset | sysOpRecover | devError | unlock
  | devPanelLock | develop | portBaudrate | portCheckFmt | portMode | portDbgLevel | portDbgPort
  | gainKLmNb | gainKMhNb | gainKLmWb | gainKMhWb | gainUpperNb | gainUpperWb | gainLowermlNb
  | gainLowermlWb | gainLowerhmNb | gainLowerhmWb | gainVoltDiscard | gainCntThod | anaType
  | anaLower | anaUpper | anaExceedMinRange | anaExceedMaxRange | anaCurtValue | anaRealCurt2ma
  | anaRealCurt20ma | anaTempConvertValue | adcCtrlPwrMode | adcPga | adcOffs0 | adcOffs2
  | targetVoltNb | targetVoltWb | outputVoltNb | outputVoltWb | nowGainNb | nowGainWb
  | tiagSwitchMode | tempUnit | tempDevTempMin | tempDevTempMax | tempMode | tempTransInteriorNb
  | tempTransInteriorWb | tempEmissivity | tempTransNb | tempTransWb | tempSlope
  | tempSlopeInterior | tempVoltZeroLNb | tempVoltZeroLWb | tempValidVol | tempAmbientCompCtl
  | twoCalibOpen | tempCalibration | tempCalibLowSet | tempCalibLowReal | tempCalibHighSet
  | tempCalibHighReal | tempCalibGainWb | tempCalibOffsetWb | tempCalibGainNb | tempCalibOffsetNb
  | tempCalibGainRatio | tempCalibOffsetRatio | targetTemp | ratioTemp | internalTempSpec
  | internalTempTia | singleTempNb | singleTempWb | measuredAttenuation | ratioTempNerve
  | netInterval | netRevTime | netDhcp | netIpAddr | netRemoteIp | netGateway | netMask | macAddr
  | netPort | recordInterval | indexClear | recordOpen | recordMaxCnt | algoStr
  | algoNetworkStrW1 | algoNetworkStrW2 | algoNetworkStrB | burstMode | burstSpeed | burstCmdList
  | burstFmt | alarmRelayAlarmMode | alarmTargetTempAlarmOn | alarmTargetTempAlarmOff
  | alarmInternalTempAlarmOn | alarmInternalTempAlarmOff | alarmDecayRate
  | alarmAttenuationAlarmOn | alarmAttenuationAlarmOff | videoExposureMode | videoExposureLevel
  | videoBrightnessVal | videoBacklightVal | videoGainVal | videoControl | videoProtocolControl
  | videoSendFre | videoTestDelay | videoSendSizeTest | videoAimingX | videoAimingY
  | videoRelativeReticleDiameter | filterTempFilterBufSize | filterAdvanceHoldThreshold
  | filterValleyHoldingTime | filterAdvanceHoldAverageTime | filterPeakHoldingTime | filterMode
  | heaterSetTemp | heaterKp | heaterKi | heaterKd | videoCtlState | videoCtlVal | anaRealVolt1v
  | anaRealVolt10v | algoLogPara | algoPolyPara | algoEffectiveW1 | algoEffectiveB1
  | algoEffectiveW2 | algoEffectiveB2 | anaVoltValue | anaTempConvertFlag | sysOpValid
  deriving DecidableEq, Repr

/-- Where a member lies. -/
def Member.target : Member → Target
  | .devAddr => ⟨.para, ParaType.dev.offset + 0, 1⟩
  | .devSn => ⟨.para, ParaType.dev.offset + 18, 11⟩
  | .devName => ⟨.para, ParaType.dev.offset + 1, 17⟩
  | .devInfo => ⟨.state, 4645, 128⟩
  | .sysOpReset => ⟨.state, 4783, 1⟩
  | .sysOpRecover => ⟨.state, 4784, 1⟩
  | .devError => ⟨.state, 4773, 9⟩
  | .unlock => ⟨.state, 4, 1⟩
  | .devPanelLock => ⟨.para, ParaType.dev.offset + 30, 1⟩
  | .develop => ⟨.state, 5, 1⟩
  | .portBaudrate => ⟨.para, ParaType.port.offset + 5, 4⟩
  | .portCheckFmt => ⟨.para, ParaType.port.offset + 1, 4⟩
  | .portMode => ⟨.para, ParaType.port.offset + 0, 1⟩
  | .portDbgLevel => ⟨.para, ParaType.port.offset + 9, 32⟩
  | .portDbgPort => ⟨.para, ParaType.port.offset + 41, 1⟩
  | .gainKLmNb => ⟨.para, ParaType.gain.offset + 32, 8⟩
  | .gainKMhNb => ⟨.para, ParaType.gain.offset + 48, 8⟩
  | .gainKLmWb => ⟨.para, ParaType.gain.offset + 24, 8⟩
  | .gainKMhWb => ⟨.para, ParaType.gain.offset + 40, 8⟩
  | .gainUpperNb => ⟨.para, ParaType.gain.offset + 4, 4⟩
  | .gainUpperWb => ⟨.para, ParaType.gain.offset + 0, 4⟩
  | .gainLowermlNb => ⟨.para, ParaType.gain.offset + 12, 4⟩
  | .gainLowermlWb => ⟨.para, ParaType.gain.offset + 8, 4⟩
  | .gainLowerhmNb => ⟨.para, ParaType.gain.offset + 20, 4⟩
  | .gainLowerhmWb => ⟨.para, ParaType.gain.offset + 16, 4⟩
  | .gainVoltDiscard => ⟨.para, ParaType.gain.offset + 60, 4⟩
  | .gainCntThod => ⟨.para, ParaType.gain.offset + 56, 4⟩
  | .anaType => ⟨.para, ParaType.ana.offset + 0, 1⟩
  | .anaLower => ⟨.para, ParaType.ana.offset + 5, 4⟩
  | .anaUpper => ⟨.para, ParaType.ana.offset + 1, 4⟩
  | .anaExceedMinRange => ⟨.para, ParaType.ana.offset + 9, 4⟩
  | .anaExceedMaxRange => ⟨.para, ParaType.ana.offset + 13, 4⟩
  | .anaCurtValue => ⟨.state, 4580, 4⟩
  | .anaRealCurt2ma => ⟨.para, ParaType.ana.offset + 25, 4⟩
  | .anaRealCurt20ma => ⟨.para, ParaType.ana.offset + 29, 4⟩
  | .anaTempConvertValue => ⟨.state, 4600, 4⟩
  | .adcCtrlPwrMode => ⟨.para, ParaType.adc.offset + 0, 1⟩
  | .adcPga => ⟨.para, ParaType.adc.offset + 3, 1⟩
  | .adcOffs0 => ⟨.para, ParaType.adc.offset + 4, 4⟩
  | .adcOffs2 => ⟨.para, ParaType.adc.offset + 8, 4⟩
  | .targetVoltNb => ⟨.state, 4468, 4⟩
  | .targetVoltWb => ⟨.state, 4464, 4⟩
  | .outputVoltNb => ⟨.state, 4476, 4⟩
  | .outputVoltWb => ⟨.state, 4472, 4⟩
  | .nowGainNb => ⟨.state, 4408, 4⟩
  | .nowGainWb => ⟨.state, 4404, 4⟩
  | .tiagSwitchMode => ⟨.state, 4400, 1⟩
  | .tempUnit => ⟨.para, ParaType.temp.offset + 0, 1⟩
  | .tempDevTempMin => ⟨.para, ParaType.temp.offset + 29, 4⟩
  | .tempDevTempMax => ⟨.para, ParaType.temp.offset + 33, 4⟩
  | .tempMode => ⟨.para, ParaType.temp.offset + 85, 4⟩
  | .tempTransInteriorNb => ⟨.para, ParaType.temp.offset + 25, 4⟩
  | .tempTransInteriorWb => ⟨.para, ParaType.temp.offset + 21, 4⟩
  | .tempEmissivity => ⟨.para, ParaType.temp.offset + 9, 4⟩
  | .tempTransNb => ⟨.para, ParaType.temp.offset + 17, 4⟩
  | .tempTransWb => ⟨.para, ParaType.temp.offset + 13, 4⟩
  | .tempSlope => ⟨.para, ParaType.temp.offset + 89, 4⟩
  | .tempSlopeInterior => ⟨.para, ParaType.temp.offset + 93, 4⟩
  | .tempVoltZeroLNb => ⟨.para, ParaType.temp.offset + 49, 4⟩
  | .tempVoltZeroLWb => ⟨.para, ParaType.temp.offset + 45, 4⟩
  | .tempValidVol => ⟨.para, ParaType.temp.offset + 97, 4⟩
  | .tempAmbientCompCtl => ⟨.para, ParaType.temp.offset + 101, 1⟩
  | .twoCalibOpen => ⟨.state, 4564, 1⟩
  | .tempCalibration => ⟨.state, 4496, 4⟩
  | .tempCalibLowSet => ⟨.state, 4500, 4⟩
  | .tempCalibLowReal => ⟨.state, 4504, 4⟩
  | .tempCalibHighSet => ⟨.state, 4508, 4⟩
  | .tempCalibHighReal => ⟨.state, 4512, 4⟩
  | .tempCalibGainWb => ⟨.para, ParaType.temp.offset + 102, 4⟩
  | .tempCalibOffsetWb => ⟨.para, ParaType.temp.offset + 114, 4⟩
  | .tempCalibGainNb => ⟨.para, ParaType.temp.offset + 106, 4⟩
  | .tempCalibOffsetNb => ⟨.para, ParaType.temp.offset + 118, 4⟩
  | .tempCalibGainRatio => ⟨.para, ParaType.temp.offset + 110, 4⟩
  | .tempCalibOffsetRatio => ⟨.para, ParaType.temp.offset + 122, 4⟩
  | .targetTemp => ⟨.state, 4432, 4⟩
  | .ratioTemp => ⟨.state, 4436, 4⟩
  | .internalTempSpec => ⟨.state, 4456, 4⟩
  | .internalTempTia => ⟨.state, 4460, 4⟩
  | .singleTempNb => ⟨.state, 4448, 4⟩
  | .singleTempWb => ⟨.state, 4444, 4⟩
  | .measuredAttenuation => ⟨.state, 4452, 4⟩
  | .ratioTempNerve => ⟨.state, 4440, 4⟩
  | .netInterval => ⟨.para, ParaType.net.offset + 0, 4⟩
  | .netRevTime => ⟨.para, ParaType.net.offset + 4, 4⟩
  | .netDhcp => ⟨.para, ParaType.net.offset + 8, 4⟩
  | .netIpAddr => ⟨.para, ParaType.net.offset + 16, 16⟩
  | .netRemoteIp => ⟨.para, ParaType.net.offset + 32, 16⟩
  | .netGateway => ⟨.para, ParaType.net.offset + 64, 16⟩
  | .netMask => ⟨.para, ParaType.net.offset + 48, 16⟩
  | .macAddr => ⟨.state, 188, 12⟩
  | .netPort => ⟨.para, ParaType.net.offset + 12, 4⟩
  | .recordInterval => ⟨.para, ParaType.record.offset + 0, 4⟩
  | .indexClear => ⟨.state, 4312, 4⟩
  | .recordOpen => ⟨.state, 4316, 4⟩
  | .recordMaxCnt => ⟨.state, 4320, 80⟩
  | .algoStr => ⟨.state, 216, 1024⟩
  | .algoNetworkStrW1 => ⟨.state, 1240, 1024⟩
  | .algoNetworkStrW2 => ⟨.state, 2264, 1024⟩
  | .algoNetworkStrB => ⟨.state, 3288, 1024⟩
  | .burstMode => ⟨.para, ParaType.burst.offset + 45, 1⟩
  | .burstSpeed => ⟨.para, ParaType.burst.offset + 0, 2⟩
  | .burstCmdList => ⟨.para, ParaType.burst.offset + 5, 40⟩
  | .burstFmt => ⟨.para, ParaType.burst.offset + 2, 3⟩
  | .alarmRelayAlarmMode => ⟨.para, ParaType.alarm.offset + 0, 4⟩
  | .alarmTargetTempAlarmOn => ⟨.para, ParaType.alarm.offset + 4, 4⟩
  | .alarmTargetTempAlarmOff => ⟨.para, ParaType.alarm.offset + 8, 4⟩
  | .alarmInternalTempAlarmOn => ⟨.para, ParaType.alarm.offset + 12, 4⟩
  | .alarmInternalTempAlarmOff => ⟨.para, ParaType.alarm.offset + 16, 4⟩
  | .alarmDecayRate => ⟨.para, ParaType.alarm.offset + 20, 4⟩
  | .alarmAttenuationAlarmOn => ⟨.para, ParaType.alarm.offset + 32, 4⟩
  | .alarmAttenuationAlarmOff => ⟨.para, ParaType.alarm.offset + 28, 4⟩
  | .videoExposureMode => ⟨.para, ParaType.video.offset + 8, 1⟩
  | .videoExposureLevel => ⟨.para, ParaType.video.offset + 9, 4⟩
  | .videoBrightnessVal => ⟨.para, ParaType.video.offset + 13, 4⟩
  | .videoBacklightVal => ⟨.para, ParaType.video.offset + 17, 1⟩
  | .videoGainVal => ⟨.para, ParaType.video.offset + 18, 1⟩
  | .videoControl => ⟨.para, ParaType.video.offset + 27, 4⟩
  | .videoProtocolControl => ⟨.para, ParaType.video.offset + 31, 1⟩
  | .videoSendFre => ⟨.para, ParaType.video.offset + 32, 1⟩
  | .videoTestDelay => ⟨.para, ParaType.video.offset + 33, 2⟩
  | .videoSendSizeTest => ⟨.para, ParaType.video.offset + 35, 4⟩
  | .videoAimingX => ⟨.para, ParaType.video.offset + 0, 4⟩
  | .videoAimingY => ⟨.para, ParaType.video.offset + 4, 4⟩
  | .videoRelativeReticleDiameter => ⟨.state, 4565, 12⟩
  | .filterTempFilterBufSize => ⟨.para, ParaType.filter.offset + 0, 2⟩
  | .filterAdvanceHoldThreshold => ⟨.para, ParaType.filter.offset + 2, 4⟩
  | .filterValleyHoldingTime => ⟨.para, ParaType.filter.offset + 6, 4⟩
  | .filterAdvanceHoldAverageTime => ⟨.para, ParaType.filter.offset + 10, 4⟩
  | .filterPeakHoldingTime => ⟨.para, ParaType.filter.offset + 14, 4⟩
  | .filterMode => ⟨.para, ParaType.filter.offset + 18, 1⟩
  | .heaterSetTemp => ⟨.para, ParaType.heater.offset + 0, 4⟩
  | .heaterKp => ⟨.para, ParaType.heater.offset + 4, 8⟩
  | .heaterKi => ⟨.para, ParaType.heater.offset + 12, 8⟩
  | .heaterKd => ⟨.para, ParaType.heater.offset + 20, 8⟩
  | .videoCtlState => ⟨.para, ParaType.video.offset + 19, 4⟩
  | .videoCtlVal => ⟨.para, ParaType.video.offset + 23, 4⟩
  | .anaRealVolt1v => ⟨.para, ParaType.ana.offset + 33, 4⟩
  | .anaRealVolt10v => ⟨.para, ParaType.ana.offset + 37, 4⟩
  | .algoLogPara => ⟨.para, ParaType.algo.offset + 0, 104⟩
  | .algoPolyPara => ⟨.para, ParaType.algo.offset + 104, 280⟩
  | .algoEffectiveW1 => ⟨.para, ParaType.algo.offset + 384, 256⟩
  | .algoEffectiveB1 => ⟨.para, ParaType.algo.offset + 640, 256⟩
  | .algoEffectiveW2 => ⟨.para, ParaType.algo.offset + 896, 256⟩
  | .algoEffectiveB2 => ⟨.para, ParaType.algo.offset + 1152, 4⟩
  | .anaVoltValue => ⟨.state, 4584, 4⟩
  | .anaTempConvertFlag => ⟨.state, 4596, 1⟩
  | .sysOpValid => ⟨.state, 4782, 1⟩

/-- The checks a rule for strings may name. -/
inductive StrChk where
  | pureDigit
  | checkFmt
  | validIp
  | cmdList
  deriving DecidableEq, Repr

/-- `fmt_type_e` with the values of the rule that belong to the format. -/
inductive RuleData where
  | u8 (min max : Nat)
  | u16 (min max : Nat)
  | u32 (min max : Nat)
  | lld (min max : Int)
  | lf (min max : Nat)
  | f6 (min max : Nat)
  | f (min max : Nat)
  | s (strChk : Option StrChk)
  | x (min max : Nat)
  | c (str : List Byte)
  deriving DecidableEq

/-- `chk_rule_t`. -/
structure ChkRule where
  minLen : Nat
  maxLen : Nat
  data : RuleData
  deriving DecidableEq

/-- `cmd_item_t`. -/
structure CmdItem where
  cmd : List Byte
  id : CmdId
  group : ParaType
  props : List PropE
  rule : ChkRule
  arg : Member
  deriving DecidableEq

/-- A whole number as a `float`. -/
def whole (value : Int) : Nat := single.ofInt value

/-- A number of thousandths as a `float`. -/
def thousandths (value : Nat) : Nat := single.roundRatio value 1000

/-- `CMD_TBL`. -/
def cmdTbl : List CmdItem :=
  [
    ⟨ascii "DA", .cmdDa, .dev, [.p, .b, .s, .n, .m], ⟨1, 2, .u8 0 32⟩, .devAddr⟩,
    ⟨ascii "ID", .cmdId, .dev, [.p, .s, .n, .m, .l, .i], ⟨10, 10, .s (some .pureDigit)⟩, .devSn⟩,
    ⟨ascii "DN", .cmdDn, .dev, [.p, .n, .i], ⟨0, 0, .s none⟩, .devName⟩,
    ⟨ascii "DV", .cmdDv, .dev, [.p, .n, .i], ⟨0, 0, .s none⟩, .devInfo⟩,
    ⟨ascii "RS", .cmdRs, .dev, [.s, .n, .i], ⟨1, 1, .c (ascii "1")⟩, .sysOpReset⟩,
    ⟨ascii "PR", .cmdPr, .dev, [.s, .n, .l, .i], ⟨1, 1, .u8 1 4⟩, .sysOpRecover⟩,
    ⟨ascii "SC", .cmdSc, .dev, [.p, .n, .i], ⟨1, 2, .s none⟩, .devError⟩,
    ⟨ascii "UL", .cmdUl, .dev, [.p, .s, .n, .i], ⟨1, 1, .u8 0 1⟩, .unlock⟩,
    ⟨ascii "J", .cmdJ, .dev, [.p, .s, .n, .i, .m], ⟨1, 1, .c (ascii "LU")⟩, .devPanelLock⟩,
    ⟨ascii "DEV", .cmdDev, .dev, [.p, .s, .n, .i], ⟨1, 1, .u8 0 1⟩, .develop⟩,
    ⟨ascii "BR", .cmdBr, .port, [.p, .s, .n, .m], ⟨4, 6, .u32 2400 230400⟩, .portBaudrate⟩,
    ⟨ascii "CF", .cmdCf, .port, [.p, .s, .n, .m, .i], ⟨1, 3, .s (some .checkFmt)⟩, .portCheckFmt⟩,
    ⟨ascii "PM", .cmdPm, .port, [.p, .s, .n, .m, .i], ⟨1, 1, .c (ascii "24")⟩, .portMode⟩,
    ⟨ascii "DB", .cmdDb, .port, [.p, .s, .n, .m, .i], ⟨1, 1, .c (ascii "01234567")⟩, .portDbgLevel⟩,
    ⟨ascii "DP", .cmdDp, .port, [.p, .s, .n, .m, .i], ⟨1, 1, .u8 0 3⟩, .portDbgPort⟩,
    ⟨ascii "NM", .cmdNm, .gain, [.p, .b, .s, .n, .m, .i],
      ⟨1, 10, .lf (double.ofInt 1) (double.ofInt 1000)⟩, .gainKLmNb⟩,
    ⟨ascii "NH", .cmdNh, .gain, [.p, .b, .s, .n, .m, .i],
      ⟨1, 10, .lf (double.ofInt 1) (double.ofInt 1000)⟩, .gainKMhNb⟩,
    ⟨ascii "WM", .cmdWm, .gain, [.p, .b, .s, .n, .m, .i],
      ⟨1, 10, .lf (double.ofInt 1) (double.ofInt 1000)⟩, .gainKLmWb⟩,
    ⟨ascii "WH", .cmdWh, .gain, [.p, .b, .s, .n, .m, .i],
      ⟨1, 10, .lf (double.ofInt 1) (double.ofInt 1000)⟩, .gainKMhWb⟩,
    ⟨ascii "NUP", .cmdNup, .gain, [.p, .b, .s, .n, .m, .i], ⟨1, 7, .u32 1 3300000⟩, .gainUpperNb⟩,
    ⟨ascii "WUP", .cmdWup, .gain, [.p, .b, .s, .n, .m, .i], ⟨1, 7, .u32 1 3300000⟩, .gainUpperWb⟩,
    ⟨ascii "NLM", .cmdNlm, .gain, [.p, .b, .s, .n, .m, .i], ⟨1, 7, .u32 1 3300000⟩, .gainLowermlNb⟩,
    ⟨ascii "WLM", .cmdWlm, .gain, [.p, .b, .s, .n, .m, .i], ⟨1, 7, .u32 1 3300000⟩, .gainLowermlWb⟩,
    ⟨ascii "NLH", .cmdNlh, .gain, [.p, .b, .s, .n, .m, .i], ⟨1, 7, .u32 1 3300000⟩, .gainLowerhmNb⟩,
    ⟨ascii "WLH", .cmdWlh, .gain, [.p, .b, .s, .n, .m, .i], ⟨1, 7, .u32 1 3300000⟩, .gainLowerhmWb⟩,
    ⟨ascii "GDN", .cmdGdn, .gain, [.p, .b, .s, .n, .m, .i], ⟨1, 3, .u32 1 500⟩, .gainVoltDiscard⟩,
    ⟨ascii "GCN", .cmdGcn, .gain, [.p, .b, .s, .n, .m, .i], ⟨1, 3, .u32 1 500⟩, .gainCntThod⟩,
    ⟨ascii "AM", .cmdAm, .ana, [.p, .s, .n, .m], ⟨1, 1, .c (ascii "04")⟩, .anaType⟩,
    ⟨ascii "AL", .cmdAl, .ana, [.p, .b, .s, .n, .m],
      ⟨3, 7, .f (whole 100) (whole 3500)⟩, .anaLower⟩,
    ⟨ascii "AH", .cmdAh, .ana, [.p, .b, .s, .n, .m],
      ⟨3, 7, .f (whole 100) (whole 3500)⟩, .anaUpper⟩,
    ⟨ascii "OAL", .cmdOal, .ana, [.p, .b, .s, .n, .m],
      ⟨1, 7, .f (whole 0) (whole 4)⟩, .anaExceedMinRange⟩,
    ⟨ascii "OAH", .cmdOah, .ana, [.p, .b, .s, .n, .m],
      ⟨1, 7, .f (whole 20) (whole 24)⟩, .anaExceedMaxRange⟩,
    ⟨ascii "OI", .cmdOi, .ana, [.p, .s, .n, .m], ⟨1, 8, .u32 0 60000000⟩, .anaCurtValue⟩,
    ⟨ascii "IL", .cmdIl, .ana, [.p, .s, .n, .m, .i], ⟨6, 7, .u32 900000 1500000⟩, .anaRealCurt2ma⟩,
    ⟨ascii "IH", .cmdIh, .ana, [.p, .s, .n, .m, .i],
      ⟨8, 8, .u32 18500000 24000000⟩, .anaRealCurt20ma⟩,
    ⟨ascii "AT", .cmdAt, .ana, [.p, .s, .n, .i],
      ⟨3, 6, .f (whole 100) (whole 3500)⟩, .anaTempConvertValue⟩,
    ⟨ascii "DM", .cmdDm, .adc, [.p, .s, .n, .m, .i], ⟨1, 1, .u8 0 3⟩, .adcCtrlPwrMode⟩,
    ⟨ascii "GA", .cmdGa, .adc, [.p, .s, .n, .m, .i], ⟨1, 1, .u32 0 0⟩, .adcPga⟩,
    ⟨ascii "OFN", .cmdOfn, .adc, [.p, .s, .n, .m, .i], ⟨1, 8, .u32 0 10000000⟩, .adcOffs0⟩,
    ⟨ascii "OFW", .cmdOfw, .adc, [.p, .s, .n, .m, .i], ⟨1, 8, .u32 0 10000000⟩, .adcOffs2⟩,
    ⟨ascii "NV", .cmdNv, .adc, [.p, .b, .n, .i], ⟨1, 1, .u32 0 0⟩, .targetVoltNb⟩,
    ⟨ascii "WV", .cmdWv, .adc, [.p, .b, .n, .i], ⟨1, 1, .u32 0 0⟩, .targetVoltWb⟩,
    ⟨ascii "ONV", .cmdOnv, .adc, [.p, .b, .n, .i], ⟨1, 1, .u32 0 0⟩, .outputVoltNb⟩,
    ⟨ascii "OWV", .cmdOwv, .adc, [.p, .b, .n, .i], ⟨1, 1, .u32 0 0⟩, .outputVoltWb⟩,
    ⟨ascii "SN", .cmdSn, .adc, [.p, .b, .s, .n, .m, .i], ⟨1, 1, .u32 0 2⟩, .nowGainNb⟩,
    ⟨ascii "SW", .cmdSw, .adc, [.p, .b, .s, .n, .m, .i], ⟨1, 1, .u32 0 2⟩, .nowGainWb⟩,
    ⟨ascii "SM", .cmdSm, .adc, [.p, .b, .s, .n, .m, .i], ⟨1, 1, .u32 0 1⟩, .tiagSwitchMode⟩,
    ⟨ascii "U", .cmdU, .temp, [.p, .b, .s, .n, .m], ⟨1, 1, .c (ascii "CFK")⟩, .tempUnit⟩,
    ⟨ascii "DL", .cmdDl, .temp, [.p, .s, .n, .m, .i],
      ⟨3, 7, .f (whole 100) (whole 3500)⟩, .tempDevTempMin⟩,
    ⟨ascii "DH", .cmdDh, .temp, [.p, .s, .n, .m, .i],
      ⟨3, 7, .f (whole 100) (whole 3500)⟩, .tempDevTempMax⟩,
    ⟨ascii "M", .cmdM, .temp, [.p, .b, .s, .n, .m], ⟨1, 1, .u8 0 2⟩, .tempMode⟩,
    ⟨ascii "NC", .cmdNc, .temp, [.p, .b, .s, .n, .m, .i],
      ⟨1, 6, .f6 (thousandths 100) (thousandths 1150)⟩, .tempTransInteriorNb⟩,
    ⟨ascii "WC", .cmdWc, .temp, [.p, .b, .s, .n, .m, .i],
      ⟨1, 6, .f6 (thousandths 100) (thousandths 1150)⟩, .tempTransInteriorWb⟩,
    ⟨ascii "E", .cmdE, .temp, [.p, .b, .s, .n, .m],
      ⟨1, 6, .f6 (thousandths 100) (thousandths 1150)⟩, .tempEmissivity⟩,
    ⟨ascii "NS", .cmdNs, .temp, [.p, .b, .s, .n, .m],
      ⟨1, 6, .f6 (thousandths 100) (thousandths 10150)⟩, .tempTransNb⟩,
    ⟨ascii "WS", .cmdWs, .temp, [.p, .b, .s, .n, .m],
      ⟨1, 6, .f6 (thousandths 100) (thousandths 10150)⟩, .tempTransWb⟩,
    ⟨ascii "S", .cmdS, .temp, [.p, .b, .s, .n, .m],
      ⟨1, 6, .f6 (thousandths 100) (thousandths 10150)⟩, .tempSlope⟩,
    ⟨ascii "SI", .cmdSi, .temp, [.p, .b, .s, .n, .m],
      ⟨1, 6, .f6 (thousandths 100) (thousandths 10150)⟩, .tempSlopeInterior⟩,
    ⟨ascii "ON", .cmdOn, .temp, [.p, .b, .s, .n, .m, .i], ⟨1, 7, .u32 0 1000000⟩, .tempVoltZeroLNb⟩,
    ⟨ascii "OW", .cmdOw, .temp, [.p, .b, .s, .n, .m, .i], ⟨1, 7, .u32 0 1000000⟩, .tempVoltZeroLWb⟩,
    ⟨ascii "VV", .cmdVv, .temp, [.p, .s, .n, .m, .i], ⟨1, 7, .u32 0 3220000⟩, .tempValidVol⟩,
    ⟨ascii "ATC", .cmdAtc, .temp, [.p, .s, .n, .m, .i], ⟨1, 1, .u8 0 1⟩, .tempAmbientCompCtl⟩,
    ⟨ascii "TTCO", .cmdTtco, .temp, [.p, .s, .n, .i], ⟨1, 1, .u8 0 1⟩, .twoCalibOpen⟩,
    ⟨ascii "CA", .cmdCa, .temp, [.s, .n, .i],
      ⟨3, 7, .f (whole 100) (whole 3500)⟩, .tempCalibration⟩,
    ⟨ascii "TCLS", .cmdTcls, .temp, [.s, .n, .i],
      ⟨3, 7, .f (whole 100) (whole 3500)⟩, .tempCalibLowSet⟩,
    ⟨ascii "TCLR", .cmdTclr, .temp, [.s, .n, .i],
      ⟨3, 7, .f (whole 100) (whole 3500)⟩, .tempCalibLowReal⟩,
    ⟨ascii "TCHS", .cmdTchs, .temp, [.s, .n, .i],
      ⟨3, 7, .f (whole 100) (whole 3500)⟩, .tempCalibHighSet⟩,
    ⟨ascii "TCHR", .cmdTchr, .temp, [.s, .n, .i],
      ⟨3, 7, .f (whole 100) (whole 3500)⟩, .tempCalibHighReal⟩,
    ⟨ascii "WTGA", .cmdWtga, .temp, [.p, .b, .s, .n, .m, .i],
      ⟨1, 8, .f (thousandths 800) (thousandths 1200)⟩, .tempCalibGainWb⟩,
    ⟨ascii "WTOF", .cmdWtof, .temp, [.p, .b, .s, .n, .m, .i],
      ⟨1, 6, .f (whole (-500)) (whole 500)⟩, .tempCalibOffsetWb⟩,
    ⟨ascii "NTGA", .cmdNtga, .temp, [.p, .b, .s, .n, .m, .i],
      ⟨1, 8, .f (thousandths 800) (thousandths 1200)⟩, .tempCalibGainNb⟩,
    ⟨ascii "NTOF", .cmdNtof, .temp, [.p, .b, .s, .n, .m, .i],
      ⟨1, 6, .f (whole (-500)) (whole 500)⟩, .tempCalibOffsetNb⟩,
    ⟨ascii "RTGA", .cmdRtga, .temp, [.p, .b, .s, .n, .m, .i],
      ⟨1, 8, .f (thousandths 800) (thousandths 1200)⟩, .tempCalibGainRatio⟩,
    ⟨ascii "RTOF", .cmdRtof, .temp, [.p, .b, .s, .n, .m, .i],
      ⟨1, 6, .f (whole (-500)) (whole 500)⟩, .tempCalibOffsetRatio⟩,
    ⟨ascii "T", .cmdT, .temp, [.p, .b, .n],
      ⟨1, 1, .f (thousandths 100) (whole 10000)⟩, .targetTemp⟩,
    ⟨ascii "RT", .cmdRt, .temp, [.p, .b, .n, .i], ⟨1, 1, .f (whole 0) (whole 0)⟩, .ratioTemp⟩,
    ⟨ascii "ST", .cmdSt, .temp, [.p, .b, .n, .i],
      ⟨1, 1, .f (whole 0) (whole 0)⟩, .internalTempSpec⟩,
    ⟨ascii "I", .cmdI, .temp, [.p, .b, .n], ⟨1, 1, .f (whole 0) (whole 0)⟩, .internalTempTia⟩,
    ⟨ascii "NT", .cmdNt, .temp, [.p, .b, .n],
      ⟨1, 1, .f (thousandths 100) (whole 10000)⟩, .singleTempNb⟩,
    ⟨ascii "WT", .cmdWt, .temp, [.p, .b, .n],
      ⟨1, 1, .f (thousandths 100) (whole 10000)⟩, .singleTempWb⟩,
    ⟨ascii "B", .cmdB, .temp, [.p, .b, .n], ⟨1, 1, .f (whole 0) (whole 0)⟩, .measuredAttenuation⟩,
    ⟨ascii "TN", .cmdTn, .temp, [.p, .b, .n, .i], ⟨1, 1, .f (whole 0) (whole 0)⟩, .ratioTempNerve⟩,
    ⟨ascii "NI", .cmdNi, .net, [.p, .s, .n, .m, .i], ⟨1, 2, .u32 1 10⟩, .netInterval⟩,
    ⟨ascii "NR", .cmdNr, .net, [.p, .s, .n, .m, .i], ⟨1, 2, .u32 1 50⟩, .netRevTime⟩,
    ⟨ascii "DHCP", .cmdDhcp, .net, [.p, .s, .n, .m, .i], ⟨1, 1, .u8 0 1⟩, .netDhcp⟩,
    ⟨ascii "IP", .cmdIp, .net, [.p, .s, .n, .m], ⟨7, 15, .s (some .validIp)⟩, .netIpAddr⟩,
    ⟨ascii "NY", .cmdNy, .net, [.p, .s, .n, .m, .i], ⟨7, 15, .s (some .validIp)⟩, .netRemoteIp⟩,
    ⟨ascii "GW", .cmdGw, .net, [.p, .s, .n, .m], ⟨7, 15, .s (some .validIp)⟩, .netGateway⟩,
    ⟨ascii "MA", .cmdMa, .net, [.p, .s, .n, .m], ⟨7, 15, .s (some .validIp)⟩, .netMask⟩,
    ⟨ascii "MAC", .cmdMac, .net, [.p], ⟨12, 12, .s none⟩, .macAddr⟩,
    ⟨ascii "PO", .cmdPo, .net, [.p, .s, .n, .m], ⟨1, 5, .u16 0 65535⟩, .netPort⟩,
    ⟨ascii "RI", .cmdRi, .record, [.p, .s, .n, .m, .i], ⟨3, 8, .u32 300 86400000⟩, .recordInterval⟩,
    ⟨ascii "RQ", .cmdRq, .record, [.s, .n, .i], ⟨1, 1, .u8 0 2⟩, .indexClear⟩,
    ⟨ascii "RO", .cmdRo, .record, [.p, .s, .n, .i], ⟨1, 1, .u8 0 1⟩, .recordOpen⟩,
    ⟨ascii "RN", .cmdRn, .record, [.p, .n, .i], ⟨1, 40, .s none⟩, .recordMaxCnt⟩,
    ⟨ascii "AP", .cmdAp, .algo, [.p, .s, .n, .m, .i], ⟨1, 1024, .s none⟩, .algoStr⟩,
    ⟨ascii "NWA", .cmdNwa, .algo, [.p, .s, .n, .m, .i], ⟨1, 1024, .s none⟩, .algoNetworkStrW1⟩,
    ⟨ascii "NWB", .cmdNwb, .algo, [.p, .s, .n, .m, .i], ⟨1, 1024, .s none⟩, .algoNetworkStrW2⟩,
    ⟨ascii "NB", .cmdNb, .algo, [.p, .s, .n, .m, .i], ⟨1, 1024, .s none⟩, .algoNetworkStrB⟩,
    ⟨ascii "V", .cmdV, .burst, [.p, .s, .n, .m], ⟨1, 1, .c (ascii "BP")⟩, .burstMode⟩,
    ⟨ascii "BS", .cmdBs, .burst, [.p, .s, .n, .m], ⟨2, 5, .u16 30 10000⟩, .burstSpeed⟩,
    ⟨ascii "BC", .cmdBc, .burst, [.p, .s, .n, .m], ⟨1, 40, .s (some .cmdList)⟩, .burstCmdList⟩,
    ⟨ascii "BF", .cmdBf, .burst, [.p, .s, .n, .m], ⟨2, 2, .s none⟩, .burstFmt⟩,
    ⟨ascii "RA", .cmdRa, .alarm, [.p, .s, .n, .m], ⟨1, 1, .u8 0 9⟩, .alarmRelayAlarmMode⟩,
    ⟨ascii "TON", .cmdTon, .alarm, [.p, .s, .n, .m],
      ⟨1, 6, .f (whole 100) (whole 3500)⟩, .alarmTargetTempAlarmOn⟩,
    ⟨ascii "TOF", .cmdTof, .alarm, [.p, .s, .n, .m],
      ⟨1, 5, .f (whole 0) (whole 150)⟩, .alarmTargetTempAlarmOff⟩,
    ⟨ascii "ION", .cmdIon, .alarm, [.p, .s, .n, .m, .i],
      ⟨1, 5, .f (whole (-40)) (whole 150)⟩, .alarmInternalTempAlarmOn⟩,
    ⟨ascii "IOF", .cmdIof, .alarm, [.p, .s, .n, .m, .i],
      ⟨1, 5, .f (whole 0) (whole 150)⟩, .alarmInternalTempAlarmOff⟩,
    ⟨ascii "DR", .cmdDr, .alarm, [.p, .s, .n, .m, .i], ⟨1, 3, .u32 0 100⟩, .alarmDecayRate⟩,
    ⟨ascii "AON", .cmdAon, .alarm, [.p, .s, .n, .m],
      ⟨1, 4, .f (whole 0) (whole 1)⟩, .alarmAttenuationAlarmOn⟩,
    ⟨ascii "AOF", .cmdAof, .alarm, [.p, .s, .n, .m, .i],
      ⟨1, 4, .f (whole 0) (whole 1)⟩, .alarmAttenuationAlarmOff⟩,
    ⟨ascii "EM", .cmdEm, .video, [.p, .s, .n, .m, .i], ⟨1, 1, .u8 1 8⟩, .videoExposureMode⟩,
    ⟨ascii "EV", .cmdEv, .video, [.p, .s, .n, .m, .i],
      ⟨2, 5, .f (whole (-13)) (whole (-2))⟩, .videoExposureLevel⟩,
    ⟨ascii "BN", .cmdBn, .video, [.p, .s, .n, .m, .i],
      ⟨1, 5, .f (whole (-64)) (whole 64)⟩, .videoBrightnessVal⟩,
    ⟨ascii "BL", .cmdBl, .video, [.p, .s, .n, .m, .i], ⟨1, 1, .u8 0 5⟩, .videoBacklightVal⟩,
    ⟨ascii "GN", .cmdGn, .video, [.p, .s, .n, .m, .i], ⟨1, 1, .u8 1 7⟩, .videoGainVal⟩,
    ⟨ascii "VI", .cmdVi, .video, [.p, .s, .n, .m], ⟨1, 1, .u8 0 1⟩, .videoControl⟩,
    ⟨ascii "VM", .cmdVm, .video, [.p, .s, .n, .m, .i], ⟨1, 1, .u8 0 1⟩, .videoProtocolControl⟩,
    ⟨ascii "VF", .cmdVf, .video, [.p, .s, .n, .m, .i], ⟨1, 1, .u8 0 8⟩, .videoSendFre⟩,
    ⟨ascii "VT", .cmdVt, .video, [.p, .s, .n, .m, .i], ⟨1, 10, .u16 0 1000⟩, .videoTestDelay⟩,
    ⟨ascii "VN", .cmdVn, .video, [.p, .s, .n, .m, .i], ⟨1, 10, .u32 0 4000⟩, .videoSendSizeTest⟩,
    ⟨ascii "AX", .cmdAx, .video, [.p, .s, .n, .m, .i],
      ⟨1, 7, .f (whole (-1000)) (whole 1000)⟩, .videoAimingX⟩,
    ⟨ascii "AY", .cmdAy, .video, [.p, .s, .n, .m, .i],
      ⟨1, 7, .f (whole (-1000)) (whole 1000)⟩, .videoAimingY⟩,
    ⟨ascii "RC", .cmdRc, .video, [.p, .n, .i],
      ⟨1, 4, .f (whole 0) (whole 1)⟩, .videoRelativeReticleDiameter⟩,
    ⟨ascii "AN", .cmdAn, .filter, [.p, .s, .n, .m], ⟨1, 3, .u16 1 500⟩, .filterTempFilterBufSize⟩,
    ⟨ascii "C", .cmdC, .filter, [.p, .s, .n, .m, .i],
      ⟨1, 1, .f (whole 0) (whole 0)⟩, .filterAdvanceHoldThreshold⟩,
    ⟨ascii "F", .cmdF, .filter, [.p, .b, .s, .n, .m, .i],
      ⟨1, 5, .f (whole 0) (whole 300)⟩, .filterValleyHoldingTime⟩,
    ⟨ascii "AA", .cmdAa, .filter, [.p, .s, .n, .m, .i],
      ⟨1, 1, .f (whole 0) (whole 0)⟩, .filterAdvanceHoldAverageTime⟩,
    ⟨ascii "P", .cmdP, .filter, [.p, .b, .s, .n, .m, .i],
      ⟨1, 5, .f (whole 0) (whole 300)⟩, .filterPeakHoldingTime⟩,
    ⟨ascii "FM", .cmdFm, .filter, [.p, .s, .n, .m, .i], ⟨1, 1, .u8 0 2⟩, .filterMode⟩,
    ⟨ascii "CT", .cmdCt, .heater, [.p, .s, .n, .m, .i],
      ⟨1, 5, .f6 (whole 0) (whole 100)⟩, .heaterSetTemp⟩,
    ⟨ascii "KP", .cmdKp, .heater, [.p, .s, .n, .m, .i],
      ⟨1, 12, .lf (double.ofInt 0) (double.ofInt 50000)⟩, .heaterKp⟩,
    ⟨ascii "KI", .cmdKi, .heater, [.p, .s, .n, .m, .i],
      ⟨1, 12, .lf (double.ofInt 0) (double.ofInt 50000)⟩, .heaterKi⟩,
    ⟨ascii "KD", .cmdKd, .heater, [.p, .s, .n, .m, .i],
      ⟨1, 12, .lf (double.ofInt 0) (double.ofInt 50000)⟩, .heaterKd⟩]

/-- `TEMP_CMD_TBL`: the commands whose value is a temperature in the set unit. -/
def tempCmdTbl : List (List Byte) :=
  ["DL", "DH", "TCLS", "TCLR", "TCHS", "TCHR", "T", "RT", "ST", "I", "NT", "WT", "TN", "TON",
    "TOF", "ION", "IOF", "CT", "AL", "AH", "AT"].map ascii

/-- `AdjRange_CMD_TBL`: the commands whose value must lie in the device's range. -/
def adjRangeCmdTbl : List (List Byte) :=
  ["AL", "AH", "AT", "CA", "TCLS", "TCLR", "TCHS", "TCHR", "TON"].map ascii

/-- `is_need_conver_unit`. -/
def isNeedConverUnit (cmd : List Byte) : Bool := tempCmdTbl.contains cmd

/-- `is_need_limitRange`. -/
def isNeedLimitRange (cmd : List Byte) : Bool := adjRangeCmdTbl.contains cmd

/-- `cmd_found`, for the rows the table has. -/
def cmdFound (word : List Byte) : Option CmdItem := cmdTbl.find? (fun item => item.cmd == word)

end Pyrometer.CommandTable
