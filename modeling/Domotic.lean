import Domotic.Uart.SleepTime
import Domotic.Store.Stop
import Domotic.Triac.Measure
import Domotic.Mqtt.Sensor
import Domotic.Uart.Isolation
import Domotic.Store.Watchdog
import Domotic.App.Slots
import Domotic.Triac.ZeroCross
import Domotic.Triac.Gate
import Domotic.Store.Channel
import Domotic.Store.Interlock
import Domotic.Store.Report
import Domotic.Pwm.Command
import Domotic.Timer.Schedule
import Domotic.Uart.StationName
import Domotic.Mqtt.Publish
import Domotic.Mqtt.Segment
import Domotic.Mqtt.Payload
import Domotic.Mqtt.Outgoing
import Domotic.Library.Loop
import Domotic.Store.Approach
import Domotic.Store.Scale
import Domotic.Library.Batch
import Domotic.Timer.Calls
import Domotic.Timer.Periods
import Domotic.Timer.Clock
import Domotic.Timer.Placement
import Domotic.Library.Numeral
import Domotic.Uart.Identifier
import Domotic.Uart.Entry
import Domotic.Library.Wave
import Domotic.Pwm.Waveform
import Domotic.Mqtt.Ledger
import Domotic.Mqtt.Acknowledge
import Domotic.Mqtt.Pacing
import Domotic.Mqtt.Connect
import Domotic.I2c.Transaction
import Domotic.Sleep.Disconnect
import Domotic.Triac.Phase
import Domotic.Bme280.Measurement
