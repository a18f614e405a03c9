import LoraIot.Foundations.Runs
import LoraIot.Wdt.Reports
import LoraIot.Foundations.Tables
import LoraIot.Vars.Replay
import LoraIot.Config.SaveBounds
import LoraIot.Config.Persistence
import LoraIot.Config.Agreement
import LoraIot.Foundations.RollCall
import LoraIot.Lora.Lines
import LoraIot.Wdt.Stray
import LoraIot.Gatt.Bounds
import LoraIot.Vars.Strings
import LoraIot.Vars.Parser
import LoraIot.Vars.SaveVerdict
import LoraIot.Lora.Display
import LoraIot.Lora.Uplinks
import LoraIot.Lora.Configure
import LoraIot.Config.Terminated
import LoraIot.Vars.Numeric
import LoraIot.Vars.Frame
import LoraIot.Wdt.Guard
import LoraIot.Vars.LoadVerdict
import LoraIot.Gatt.SaveReport
import LoraIot.Foundations.Chunks
import LoraIot.Uart.Session
import LoraIot.Foundations.Simulations
import LoraIot.Foundations.Persistence
import LoraIot.Uart.Send
import LoraIot.Lora.Wire
import LoraIot.Config.Settings
import LoraIot.Vars.Interrupted
import LoraIot.Config.Refinement
import LoraIot.Foundations.Records
import LoraIot.Lora.Format
import LoraIot.Lora.Host
import LoraIot.Wdt.Firmware
import LoraIot.Config.Joining
import LoraIot.Foundations.Potentials
import LoraIot.Gatt.Read
import LoraIot.Lora.Latency
import LoraIot.Lora.Ledger
import LoraIot.Lora.Pace
import LoraIot.Lora.Returns
import LoraIot.Lora.Spacing
