import FlowGraph.Main
import FlowGraph.Proofs.CommandLine.Idle
import FlowGraph.Proofs.Definition.Build
import FlowGraph.Proofs.Definition.Canonical
import FlowGraph.Proofs.Definition.Section
import FlowGraph.Proofs.Dot.Comment
import FlowGraph.Proofs.Dot.Packets
import FlowGraph.Proofs.Export.Naming
import FlowGraph.Proofs.Live.Cascade
import FlowGraph.Proofs.Live.Commuting
import FlowGraph.Proofs.Live.Presence
import FlowGraph.Proofs.Live.Registration
import FlowGraph.Proofs.Live.Replay
import FlowGraph.Proofs.Load.DataModel
import FlowGraph.Proofs.Load.Delivery
import FlowGraph.Proofs.Load.FixedPoint
import FlowGraph.Proofs.Program.LineEnds
import FlowGraph.Proofs.Program.ProcessTable
import FlowGraph.Proofs.Program.Rendering
import FlowGraph.Proofs.Program.Search
import FlowGraph.Proofs.Yuml
import FlowGraph.Scenario.Run
