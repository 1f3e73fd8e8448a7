import SensorIngest.CommandLine.Simulator
import SensorIngest.FileSystem
import SensorIngest.Frame.Encode
import SensorIngest.Listener
import SensorIngest.Main
import SensorIngest.Simulator.History
import SensorIngest.Simulator.Tone
import SensorIngest.Proofs.Intake.Delivery
import SensorIngest.Proofs.Intake.Invariant
import SensorIngest.Proofs.Intake.Loss
import SensorIngest.Proofs.Intake.Reordering
import SensorIngest.Proofs.Intake.Restart
import SensorIngest.Proofs.Agreement
import SensorIngest.Proofs.EndToEnd
import SensorIngest.Proofs.Frame.Consumption
import SensorIngest.Proofs.Reply
import SensorIngest.Proofs.Session.Memory
import SensorIngest.Proofs.Timeline.Drift
import SensorIngest.Proofs.Timeline.Reckoning
import SensorIngest.Proofs.Timeline.Translation
import SensorIngest.Proofs.Frame.Corruption
import SensorIngest.Proofs.Intake.Listeners
import SensorIngest.Proofs.Intake.Transparency
import SensorIngest.Proofs.Intake.Lifetime
import SensorIngest.Proofs.Intake.Resends
import SensorIngest.Proofs.Lane.Sinks
import SensorIngest.Proofs.Sink.Presence
import SensorIngest.Proofs.Sink.Samples
import SensorIngest.Proofs.ShardedMap.Refinement
import SensorIngest.Proofs.CommandLine
import SensorIngest.Proofs.Safety
import SensorIngest.Proofs.Timeline.Range
import SensorIngest.Proofs.Backlog.Refinement
import SensorIngest.Proofs.Simulator.History
