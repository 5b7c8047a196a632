import CodingExamples.BinarySearchPrefetch.BinarySearch
import CodingExamples.Crc.Checksums
import CodingExamples.Crc.Crc16
import CodingExamples.Crc.Crc8
import CodingExamples.EchoServer.Deadlock
import CodingExamples.EchoServer.Isolation
import CodingExamples.EchoServer.Multiplexing
import CodingExamples.EchoServer.Readline
import CodingExamples.EchoServer.ReadlineBuffer
import CodingExamples.EchoServer.Readn
import CodingExamples.EchoServer.Session
import CodingExamples.EchoServer.Unp
import CodingExamples.EchoServer.Writen
import CodingExamples.FattreeNs2.Multipath
import CodingExamples.FattreeNs2.Topology
import CodingExamples.FlowTracker.BytesSent
import CodingExamples.FlowTracker.Concurrent
import CodingExamples.FlowTracker.CrcTable
import CodingExamples.FlowTracker.FlowHash
import CodingExamples.FlowTracker.Hook
import CodingExamples.FlowTracker.Module
import CodingExamples.FlowTracker.ModuleTable
import CodingExamples.FlowTracker.NumFlows
import CodingExamples.FlowTracker.Table
import CodingExamples.FlowTracker.TableMap
import CodingExamples.IncastNs2.Group
import CodingExamples.IncastNs2.Rounds
import CodingExamples.Ipip.Buffer
import CodingExamples.Ipip.OptionFrame
import CodingExamples.Ipip.OptionWalk
import CodingExamples.Ipip.ReduceTcpMss
import CodingExamples.Ipip.SynOptions
import CodingExamples.Ipip.Tunnel
import CodingExamples.Library.ArrayStack
import CodingExamples.Library.Barrier
import CodingExamples.Library.BinaryPolynomial
import CodingExamples.Library.BucketTable
import CodingExamples.Library.BurstError
import CodingExamples.Library.ByteOrder
import CodingExamples.Library.CallLoop
import CodingExamples.Library.Codeword
import CodingExamples.Library.CountedLoop
import CodingExamples.Library.CycleInsertion
import CodingExamples.Library.Descent
import CodingExamples.Library.Execution
import CodingExamples.Library.Fifo
import CodingExamples.Library.HttpMessage
import CodingExamples.Library.Interpolation
import CodingExamples.Library.LexicalPath
import CodingExamples.Library.MachineCounter
import CodingExamples.Library.Memory
import CodingExamples.Library.OptionList
import CodingExamples.Library.Outcome
import CodingExamples.Library.Parity
import CodingExamples.Library.PrefixAcceptance
import CodingExamples.Library.RegisterPeriod
import CodingExamples.Library.ShiftRegister
import CodingExamples.Library.SlotTable
import CodingExamples.Library.SocketTable
import CodingExamples.Library.Worklist
import CodingExamples.MemReadLat.Shuffle
import CodingExamples.MemReadLat.Swaps
import CodingExamples.MemReadLat.TestCache
import CodingExamples.PollEchoServer.Round
import CodingExamples.PollEchoServer.Server
import CodingExamples.PollEchoServer.Slots
import CodingExamples.PyHttpServer.Framing
import CodingExamples.PyHttpServer.Request
import CodingExamples.PyHttpServer.Response
import CodingExamples.PyHttpServer.SingleAnswer
import CodingExamples.PyHttpServer.Target
import CodingExamples.Re2Demo.Accesses
import CodingExamples.Re2Demo.Regexec
import CodingExamples.RegexVm.Agreement
import CodingExamples.RegexVm.Automaton
import CodingExamples.RegexVm.Backtracking
import CodingExamples.RegexVm.Backtrackingvm
import CodingExamples.RegexVm.Common
import CodingExamples.RegexVm.Main
import CodingExamples.RegexVm.Recursive
import CodingExamples.RegexVm.Thompson
import CodingExamples.RegexVm.ThompsonMachine
import CodingExamples.RegexVm.ThompsonRun
import CodingExamples.SelectEchoServer.Descriptors
import CodingExamples.SelectEchoServer.Server
import CodingExamples.SimpleTrafficGen.Common
import CodingExamples.SimpleTrafficGen.Exact
import CodingExamples.SimpleTrafficGen.Session
import CodingExamples.TrafficGenNs2.Counters
import CodingExamples.TrafficGenNs2.Generator
import CodingExamples.TrafficGenNs2.Runs
import CodingExamples.TrafficTraceGen.Distribution
import CodingExamples.TrafficTraceGen.GenSize
import CodingExamples.Library.ErrorPositions
import CodingExamples.Library.CollisionDistance
import CodingExamples.Crc.Distance
import CodingExamples.EchoServer.Processes
import CodingExamples.Library.Progress
import CodingExamples.EchoServer.ForkedEcho
import CodingExamples.EchoServer.OpenSockets
import CodingExamples.EchoServer.Outcome
import CodingExamples.EchoServer.RoundEnds
import CodingExamples.Library.Blocks
import CodingExamples.Library.SlotScan
import CodingExamples.SelectEchoServer.Round
import CodingExamples.SimpleTrafficGen.Faults
import CodingExamples.FlowTracker.Linearization
import CodingExamples.Ipip.Checksums
import CodingExamples.Library.InterpolatedArea
import CodingExamples.RegexVm.Passes
import CodingExamples.TrafficGenNs2.Flows
import CodingExamples.TrafficTraceGen.AverageSize
import CodingExamples.MemReadLat.Uniformity
import CodingExamples.Library.CycleLengths
import CodingExamples.MemReadLat.ChainLength
