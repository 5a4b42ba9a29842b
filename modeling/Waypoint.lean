import Waypoint.Core.Servo.SafeGoal
import Waypoint.Core.DriveRace
import Waypoint.Rover.DriveAuthority
import Waypoint.Agent.HardwarePaths
import Waypoint.Rover.AlertMirrors
import Waypoint.Proxy.AlertIsolation
import Waypoint.Proxy.RegistryPins
import Waypoint.Agent.TrustPins
import Waypoint.Rover.RegisteredImages
import Waypoint.Core.Nats.Robust
import Waypoint.Core.Nats.Reconnect
import Waypoint.Core.Servo.SyncWrite
import Waypoint.Core.Servo.RegisterOps
import Waypoint.Core.Servo.Eeprom
import Waypoint.Core.Servo.Resync
import Waypoint.Core.Servo.Overcurrent
import Waypoint.Core.Boot
import Waypoint.Core.Heartbeats
import Waypoint.Core.Stepping
import Waypoint.Platform.WheelSpeeds
import Waypoint.Proxy.DeleteRover
import Waypoint.Proxy.AutoUpdates
import Waypoint.Agent.GrantedPatterns
import Waypoint.Agent.ModuleCreds
import Waypoint.Agent.HealthWatcher
import Waypoint.Agent.LeafWatcher
import Waypoint.Agent.DropinHistory
import Waypoint.Agent.UninstalledImages
import Waypoint.Agent.ConfirmedInstall
import Waypoint.Agent.Recorder.EpisodeFiles
import Waypoint.Agent.Recorder.NalReader
import Waypoint.Rover.RecordedUnits
import Waypoint.Survey.Completeness
import Waypoint.Firmware.RelayTasks
import Waypoint.Agent.Recorder.KeyframeGate
import Waypoint.Dashboard.AlertList
import Waypoint.Dashboard.ModuleConfig
import Waypoint.Dashboard.Reconnects
import Waypoint.Dashboard.Redundancy
import Waypoint.Proxy.RelayedOnce
import Waypoint.Proxy.RoverRpc
import Waypoint.Proxy.SanitizeNext
import Waypoint.Survey.Ws2812
