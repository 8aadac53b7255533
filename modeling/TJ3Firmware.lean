import TJ3Firmware.Protocol.BitFlip
import TJ3Firmware.ExtComm.LogStream
import TJ3Firmware.BleGatt.IndexSafety
import TJ3Firmware.BleGatt.Response
import TJ3Firmware.FsHandler.MountSafety
import TJ3Firmware.FsHandler.BootData
import TJ3Firmware.FsHandler.FreshVolume
import TJ3Firmware.FsHandler.LogRecords
import TJ3Firmware.Atm90e26
import TJ3Firmware.Atm90e26.Exchange
import TJ3Firmware.Atm90e26.Reading
import TJ3Firmware.Atm90e26.Snapshot
import TJ3Firmware.Atm90e26.Energy
import TJ3Firmware.Atm90e26.Calibration
import TJ3Firmware.Atm90e26.Printing
import TJ3Firmware.Library.Distance
import TJ3Firmware.Library.PowMod
import TJ3Firmware.Protocol.Detection
import TJ3Firmware.FsHandler.AppendSafety
import TJ3Firmware.FsHandler.FormatFailure
import TJ3Firmware.FsHandler.SelfTest
import TJ3Firmware.Atm90e26.Init
import TJ3Firmware.BleGatt.References
import TJ3Firmware.MainLoop
import TJ3Firmware.BleGatt.Reachability
import TJ3Firmware.Protocol.Prefix
import TJ3Firmware.Library.Hex
import TJ3Firmware.PacketTool
import TJ3Firmware.BleGatt.Characteristics
import TJ3Firmware.BleGatt.RegisterFile
import TJ3Firmware.Library.Handles
import TJ3Firmware.Directory
import TJ3Firmware.FsHandler.HandleLeaks
import TJ3Firmware.Library.NorFlash
import TJ3Firmware.SpiFlash
import TJ3Firmware.Library.Threads
import TJ3Firmware.System
import TJ3Firmware.System.Storage
import TJ3Firmware.MainLoop.Reports
import TJ3Firmware.Atm90e26.Responder
import TJ3Firmware.MainLoop.Registers
import TJ3Firmware.Atm90e26.Polling
import TJ3Firmware.MainLoop.Progress
import TJ3Firmware.BleGatt.Database
import TJ3Firmware.BleGatt.Services
import TJ3Firmware.FsHandler.TornLogs
import TJ3Firmware.ExtComm.Incremental
import TJ3Firmware.System.Survival
import TJ3Firmware.Library.Scan
import TJ3Firmware.MainLoop.ReadBack
import TJ3Firmware.MainLoop.Telemetry
import TJ3Firmware.HostDriver
import TJ3Firmware.HostDriver.Wire
import TJ3Firmware.Atm90e26.Commands
import TJ3Firmware.MainLoop.Ledger
import TJ3Firmware.System.Conversation
