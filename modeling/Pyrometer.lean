import Pyrometer.ByteMemory
import Pyrometer.NorFlash
import Pyrometer.ShiftRegister
import Pyrometer.Checksums
import Pyrometer.FlashController
import Pyrometer.EepromStorage
import Pyrometer.ParameterLayout
import Pyrometer.DefaultParameters
import Pyrometer.BitMasks
import Pyrometer.ParameterManager
import Pyrometer.ParameterChecks
import Pyrometer.ParameterLoading
import Pyrometer.ParameterSaving
import Pyrometer.ParameterRepair
import Pyrometer.PowerCutSaving
import Pyrometer.Runs
import Pyrometer.RunningOffsets
import Pyrometer.ParameterPersistence
import Pyrometer.BaseProtocol
import Pyrometer.PacketRoundTrip
import Pyrometer.FirmwareInfo
import Pyrometer.UpgradeSession
import Pyrometer.UpgradeSteps
import Pyrometer.BaseStream
import Pyrometer.StreamDispatch
import Pyrometer.UpgradeConfinement
import Pyrometer.UpgradeIntegrity
import Pyrometer.UpgradeStaging
import Pyrometer.BootInstaller
import Pyrometer.BootInstallation
import Pyrometer.BootConfinement
import Pyrometer.ClientIsolation
import Pyrometer.UppLines
import Pyrometer.UppGrammar
import Pyrometer.BinaryFloats
import Pyrometer.CText
import Pyrometer.CommandTable
import Pyrometer.InstrumentState
import Pyrometer.AlgorithmCommands
import Pyrometer.CommandExecution
import Pyrometer.UppStream
import Pyrometer.CommandReplies
import Pyrometer.UppReplies
import Pyrometer.UppAddressing
import Pyrometer.BufferSafety
import Pyrometer.CommandEffects
import Pyrometer.SetCommands
import Pyrometer.SetAtomicity
import Pyrometer.SetFrame
import Pyrometer.AgentQueues
import Pyrometer.SerialReceive
import Pyrometer.SerialTransmit
import Pyrometer.EepromAliasing
import Pyrometer.RecordPersistence
import Pyrometer.ReplyDelivery
import Pyrometer.SoftI2c
import Pyrometer.StorageHonesty
import Pyrometer.SpiRings
import Pyrometer.TcpSlots
import Pyrometer.DeviceUse
import Pyrometer.SetGetAgreement
import Pyrometer.FloatOrder
import Pyrometer.CommandRanges
import Pyrometer.AnalogLimits
import Pyrometer.Selection
import Pyrometer.WindowFilter
import Pyrometer.VoltageFilter
import Pyrometer.GainExtrapolation
import Pyrometer.GainControl
import Pyrometer.GainDebounce
import Pyrometer.GainAgreement
import Pyrometer.TemperatureStatus
import Pyrometer.ErrorFlags
import Pyrometer.HoldFilter
import Pyrometer.HeldExtremes
import Pyrometer.FactoryRestore
import Pyrometer.UpgradeScheduling
import Pyrometer.MessageQueue
import Pyrometer.AgentFlush
import Pyrometer.OsTimers
import Pyrometer.DeadBands
import Pyrometer.HeaterControl
import Pyrometer.GainSmoothing
import Pyrometer.AnalogOutput
import Pyrometer.BurstErrors
import Pyrometer.TwoPointCalibration
import Pyrometer.HostChecksum
import Pyrometer.CoefficientFrame
import Pyrometer.CoefficientRoundTrip
import Pyrometer.BurstText
import Pyrometer.StoppedLogs
import Pyrometer.Calendar
import Pyrometer.RtcCalendar
import Pyrometer.Scanning
import Pyrometer.ClockSetting
import Pyrometer.IpAddresses
import Pyrometer.KeyEvents
import Pyrometer.PanelItems
import Pyrometer.MenuNavigation
import Pyrometer.PanelEdits
import Pyrometer.LineEditor
import Pyrometer.ConsoleCommands
import Pyrometer.FlashWriting
import Pyrometer.HashTable
import Pyrometer.ChannelRegistry
import Pyrometer.AnalogCalibration
import Pyrometer.HeaterIntegral
import Pyrometer.SystemRequests
import Pyrometer.DisplayRefresh
import Pyrometer.Bisections
import Pyrometer.OnePointCalibration
import Pyrometer.CrcTables
import Pyrometer.AckDetection
import Pyrometer.PageSplitting
import Pyrometer.CircularList
import Pyrometer.CommandLists
import Pyrometer.NumberRecognition
import Pyrometer.StringTokeniser
import Pyrometer.Occurrences
import Pyrometer.SubstringSearch
import Pyrometer.ByteWriting
import Pyrometer.LowDigits
import Pyrometer.NumberFormatting
import Pyrometer.LedTube
import Pyrometer.I2cWires
import Pyrometer.WarmStart
import Pyrometer.Ad7124
import Pyrometer.EepromWires
import Pyrometer.UpgradePath
import Pyrometer.FramedBus
import Pyrometer.PanelChip
import Pyrometer.UpgradeMailboxes
import Pyrometer.I2cWrites
import Pyrometer.DacWires
import Pyrometer.OledText
import Pyrometer.DelayTimer
import Pyrometer.RequestPath
import Pyrometer.SelfTest
import Pyrometer.StartupConsole
import Pyrometer.TemperatureConversion
import Pyrometer.SingleCalibration
import Pyrometer.NetworkFolding
import Pyrometer.Thermistor
