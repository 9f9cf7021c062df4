import UsvRt.Runs
import UsvRt.MachineWord
import UsvRt.Supervision
import UsvRt.Ramp
import UsvRt.Framing
import UsvRt.Windows
import UsvRt.FloatRounding
import UsvRt.TextScan
import UsvRt.Decimal
import UsvRt.FieldScan
import UsvRt.Wakeups
import UsvRt.Truncation
import UsvRt.Logistic
import UsvRt.Actuators
import UsvRt.ServerProtocol
import UsvRt.RadioProtocol
import UsvRt.Radar
import UsvRt.RxFifo
import UsvRt.Sampler
import UsvRt.Manager
import UsvRt.AutoCruise
import UsvRt.Device
import UsvRt.PumpInterlock
import UsvRt.ServerFrames
import UsvRt.ServerMessages
import UsvRt.ServerRecovery
import UsvRt.MalformedFrames
import UsvRt.MotorMixing
import UsvRt.ManualSymmetry
import UsvRt.SampleTiming
import UsvRt.Dosing
import UsvRt.SampleCourse
import UsvRt.SampleReports
import UsvRt.PumpTime
import UsvRt.HoseRange
import UsvRt.HoseParking
import UsvRt.RemotePumping
import UsvRt.EmergencyStop
import UsvRt.MotorRamp
import UsvRt.RemoteFailSafe
import UsvRt.ServerLink
import UsvRt.Confirmation
import UsvRt.RadarFrames
import UsvRt.TargetOrigins
import UsvRt.ObstacleReports
import UsvRt.FieldBounds
import UsvRt.ServerOrders
import UsvRt.RadioFrames
import UsvRt.WaterProbe
import UsvRt.Position
import UsvRt.SerialReaders
import UsvRt.HeadingError
import UsvRt.Autopilot
import UsvRt.PowerBudget
import UsvRt.ConfiguredGains
import UsvRt.Tangent
import UsvRt.BatteryGauge
import UsvRt.PositionRange
import UsvRt.NearestObstacle
import UsvRt.MalformedRadio
import UsvRt.FormatSyntax
import UsvRt.BoundedText
import UsvRt.Formatter
import UsvRt.EchoFormat
import UsvRt.StartUp
import UsvRt.PumpTimer
import UsvRt.ArrayWrites
import UsvRt.BufferBounds
import UsvRt.PrintedNumbers
import UsvRt.Telemetry
import UsvRt.PwmTimer
import UsvRt.Deadlines
import UsvRt.Kernel
import UsvRt.KernelLists
import UsvRt.KernelSteps
import UsvRt.KernelRuns
import UsvRt.KernelSleep
import UsvRt.KernelSemaphores
import UsvRt.KernelDispatch
import UsvRt.HeapRuns
