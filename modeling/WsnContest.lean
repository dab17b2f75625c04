import WsnContest.Lib.System
import WsnContest.Lib.Network
import WsnContest.Tinyos
import WsnContest.Gossip.MinMax
import WsnContest.Gossip.Storm
import WsnContest.Gossip.Quiescence
import WsnContest.Gossip.BiDaXiao
import WsnContest.Gossip.Silence
import WsnContest.Gossip.Provenance
import WsnContest.Car.Driver
import WsnContest.Car.Wakeup
import WsnContest.Car.FrameIntegrity
import WsnContest.Car.Parser
import WsnContest.Car.Answers
import WsnContest.Car.Isolation
import WsnContest.Car.PcNode
import WsnContest.Car.Relay
import WsnContest.Car.RelayFilter
import WsnContest.Car.RelayFlood
import WsnContest.Car.Node
import WsnContest.Car.Buffers
import WsnContest.Car.PcNodeRecv
import WsnContest.Car.CommandChain
import WsnContest.Car.Reset
import WsnContest.Car.PerfectLink
import WsnContest.Car.Readings
import WsnContest.Lib.Gradient
import WsnContest.Lib.Wave
import WsnContest.Routing.Convergence
import WsnContest.Routing.Buffer
import WsnContest.Routing.Sink
import WsnContest.Routing.Effects
import WsnContest.Routing.Heartbeat
import WsnContest.Gossip.Trace
import WsnContest.Gossip.Lock
import WsnContest.Gossip.Memory
import WsnContest.Gossip.Report
import WsnContest.Routing.Rounds
import WsnContest.Car.Calls
import WsnContest.Lib.Notes
import WsnContest.Routing.Poll
import WsnContest.Routing.Election
import WsnContest.Routing.Forwarding
import WsnContest.Gossip.Updates
import WsnContest.Routing.ElectionFlood
import WsnContest.Car.Steering
import WsnContest.Car.Actuators
import WsnContest.Lib.Quota
import WsnContest.Car.Resending
import WsnContest.Car.ReceiveBounds
import WsnContest.Car.ReaderFrames
import WsnContest.Digit.Source
import WsnContest.Digit.Relay
import WsnContest.Official.Beacon
import WsnContest.Ctp.Collection
import WsnContest.Ctp.Deployment
import WsnContest.Gossip.Stale
import WsnContest.Lib.Bitmap
import WsnContest.Digit.Pattern
import WsnContest.Gossip.Serial
import WsnContest.Routing.Air
import WsnContest.Routing.Table
import WsnContest.Lib.Lineage
import WsnContest.Lib.Custody
import WsnContest.Routing.Data
import WsnContest.Routing.Descent
import WsnContest.Routing.Conservation
import WsnContest.Routing.Delivery
import WsnContest.Routing.DataFlood
import WsnContest.Official.Deployment
import WsnContest.Car.Course
import WsnContest.Car.DataChain
import WsnContest.Official.Original
import WsnContest.Gossip.Deadline
import WsnContest.Digit.Wall
import WsnContest.Gossip.Truth
import WsnContest.Routing.Speaker
import WsnContest.Routing.Single
