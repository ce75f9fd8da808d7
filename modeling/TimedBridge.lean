import TimedBridge.Main
import TimedBridge.Proofs.Agenda.Order
import TimedBridge.Proofs.Bridge.Charging
import TimedBridge.Proofs.Bridge.Entering
import TimedBridge.Proofs.Bridge.FailedSubmission
import TimedBridge.Proofs.Bridge.Observation
import TimedBridge.Proofs.Bridge.ReadBack
import TimedBridge.Proofs.Bridge.Readmission
import TimedBridge.Proofs.Bridge.Replies
import TimedBridge.Proofs.Bridge.Retry
import TimedBridge.Proofs.Bridge.StrandedAccess
import TimedBridge.Proofs.Bridge.Tagging
import TimedBridge.Proofs.Bridge.Unbound
import TimedBridge.Proofs.Bridge.Undisturbed
import TimedBridge.Proofs.Clock.Capped
import TimedBridge.Proofs.CommandLine.Grammar
import TimedBridge.Proofs.Host.Punctual
import TimedBridge.Proofs.Json.MisspeltField
import TimedBridge.Proofs.Json.ScenarioText
import TimedBridge.Proofs.Memory.Service
import TimedBridge.Proofs.Packet.Malformed
import TimedBridge.Proofs.Packet.SharedBytes
import TimedBridge.Proofs.Simulation.Earliest
import TimedBridge.Proofs.Simulation.Ends
import TimedBridge.Proofs.Simulation.FunctionalTraffic
import TimedBridge.Proofs.Simulation.InsideRanges
import TimedBridge.Proofs.Simulation.LastWrite
import TimedBridge.Proofs.Simulation.RoundTrip
import TimedBridge.Proofs.Simulation.SameCourse
import TimedBridge.Proofs.Simulation.SerialOrder
import TimedBridge.Proofs.TransmitQueue.Discipline
