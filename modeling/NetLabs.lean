import NetLabs.Lib.While
import NetLabs.Lib.Ring
import NetLabs.Lib.Bytes
import NetLabs.Lib.Chunks
import NetLabs.Lib.Transition
import NetLabs.Lib.ReorderBuffer
import NetLabs.Lib.Inet
import NetLabs.Lib.Crc
import NetLabs.Lib.OnesComplement
import NetLabs.Lib.EventQueue
import NetLabs.Lib.MovingAverage
import NetLabs.Lib.Ewma
import NetLabs.Lib.Rounding
import NetLabs.Lib.Stream
import NetLabs.Lib.Heap
import NetLabs.Lib.Refine
import NetLabs.Lib.TokenBucket
import NetLabs.Lib.ArrivalCurve
import NetLabs.Lib.Marker
import NetLabs.Lib.TwoRate
import NetLabs.Rdt.Check
import NetLabs.Rdt.CheckTheorems
import NetLabs.Rdt.Sender
import NetLabs.Rdt.SenderTheorems
import NetLabs.Rdt.SenderWindow
import NetLabs.Rdt.SenderStream
import NetLabs.Rdt.SenderBuffer
import NetLabs.Rdt.SenderProgress
import NetLabs.Rdt.Receiver
import NetLabs.Rdt.ReceiverTheorems
import NetLabs.Rdt.Reassembly
import NetLabs.Rdt.ReceiverOrder
import NetLabs.Rdt.System
import NetLabs.Rdt.SystemTheorems
import NetLabs.Rdt.ReceiverBounds
import NetLabs.Rdt.CleanRound
import NetLabs.Rdt.Recovery
import NetLabs.Rdt.HeapSender
import NetLabs.Rdt.HeapSenderTheorems
import NetLabs.Rdt.HeapReceiver
import NetLabs.Rdt.HeapSystem
import NetLabs.Rdt.Sim
import NetLabs.Rdt.SimTheorems
import NetLabs.Rdt.SimEvents
import NetLabs.Rdt.SimTimer
import NetLabs.Rdt.SimVerdict
import NetLabs.Rdt.SimArrivals
import NetLabs.Rdt.SimEnd
import NetLabs.Rdt.SimTraffic
import NetLabs.Udp.Packet
import NetLabs.Udp.PacketTheorems
import NetLabs.Udp.Checksum
import NetLabs.Udp.RawCksum
import NetLabs.Qos.Dropper
import NetLabs.Qos.DropperTheorems
import NetLabs.Qos.Meter
import NetLabs.Qos.MeterTheorems
import NetLabs.Qos.Main
import NetLabs.Qos.Refill
import NetLabs.Qos.MainTheorems
import NetLabs.Qos.Tcm
import NetLabs.Qos.TbParams
import NetLabs.Qos.Policing
import NetLabs.Qos.Contract
import NetLabs.Qos.RedAccuracy
import NetLabs.Qos.IdleDecay
