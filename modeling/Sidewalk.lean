import Sidewalk.Lib.Hops
import Sidewalk.Tlv.Accept
import Sidewalk.Tlv.Faults
import Sidewalk.Mfg.Image
import Sidewalk.Mfg.Provision
import Sidewalk.Mfg.Copy
import Sidewalk.Mfg.RoundTrip
import Sidewalk.Mfg.Migration
import Sidewalk.Mfg.Bounds
import Sidewalk.Mfg.Agreement
import Sidewalk.Mfg.Upsert
import Sidewalk.Mfg.Legacy
import Sidewalk.Timer.Sequential
import Sidewalk.Timer.Interleaving
import Sidewalk.Timer.Release
import Sidewalk.Timer.WakeUp
import Sidewalk.Pal.CriticalRegion
import Sidewalk.Ble.Advert
import Sidewalk.Demo.RoundTrip
import Sidewalk.Demo.AppRx
import Sidewalk.Cert.Bounds
import Sidewalk.Cert.Lifecycle
import Sidewalk.Cert.Store
import Sidewalk.Storage.KeyMigration
import Sidewalk.Crypto.Calls
import Sidewalk.Radio.ModemHal
import Sidewalk.Radio.FskFrame
import Sidewalk.Radio.Arbitration
import Sidewalk.Radio.ScanSimulation
import Sidewalk.Radio.ListenBeforeTalk
import Sidewalk.Radio.Hardware
import Sidewalk.App.Events
import Sidewalk.Lib.Rules
import Sidewalk.Radio.Interface
import Sidewalk.Radio.Lr11xx
import Sidewalk.Tlv.Reads
import Sidewalk.Tlv.Agreement
import Sidewalk.Sbdt.ScratchBuffer
import Sidewalk.App.Contexts
import Sidewalk.Dfu.Bluetooth
import Sidewalk.Storage.KeyUpdate
import Sidewalk.Storage.DeprecatedStore
import Sidewalk.Timer.Drift
import Sidewalk.Mfg.Intact
import Sidewalk.Pal.GpioRegistry
import Sidewalk.Location.GnssPayload
import Sidewalk.Lib.CString
import Sidewalk.Location.PrintTrace
import Sidewalk.App.Dult
import Sidewalk.App.SendCommand
import Sidewalk.Demo.Buttons
import Sidewalk.Radio.WakeUp
import Sidewalk.Radio.Timeouts
import Sidewalk.Crypto.Buffers
import Sidewalk.Radio.Channel.Basic
import Sidewalk.Radio.Channel.Free
import Sidewalk.Radio.Channel.Noise
import Sidewalk.Radio.Channel.Assessment
import Sidewalk.Radio.Interrupts.Packets
import Sidewalk.Radio.Interrupts.Process
import Sidewalk.Radio.Interrupts.Agreement
import Sidewalk.Radio.Interrupts.Swallowed
import Sidewalk.Lib.Slots
import Sidewalk.Sbdt.Transfers
import Sidewalk.Sbdt.InStep
import Sidewalk.Lib.Crc
import Sidewalk.Sbdt.Checksum
import Sidewalk.Lib.Chunks
import Sidewalk.Lr11xx.Flash
import Sidewalk.Lr11xx.Utf8
import Sidewalk.Lr11xx.Wifi
import Sidewalk.Lr11xx.Gnss
import Sidewalk.Lib.Scaled
import Sidewalk.Radio.SymbTimeout
import Sidewalk.Radio.AirTime
import Sidewalk.Radio.Calibration
import Sidewalk.Ble.Connection
import Sidewalk.Cert.Provisioning
import Sidewalk.Sbdt.ImageTransfer
