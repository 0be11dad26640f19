import Mathlib.Logic.Function.Iterate
import NetLabs.Qos.Meter

/-!
# The test program

`main` of `lab3/main.c`: ten bursts of packets, one for each millisecond. Every packet is metered
and then offered to the dropper, both of which see the same time; the bytes sent and the bytes
passed are counted for each flow.

The numbers that `rand` returns are an argument, the `n`-th call returns `rand n`. The counters are
`int`, to which an `uint32_t` is added, so that they are words of 32 bits. The factors of
`__rte_red_calc_qempty_factor`, which come from `pow`, are an argument as well. `main` ignores the
results of the two initialisations, which succeed (`init_ok`).
-/

namespace NetLabs.Qos

/-- The variables of `main` and the static variables of `qos.c`; `drawn` is the number of calls of
`rand` so far. -/
structure Main where
  meter : Meter
  dropper : Dropper
  time : BitVec 64
  cntSend : Fin appFlowsMax → BitVec 32
  cntPass : Fin appFlowsMax → BitVec 32
  drawn : ℕ

namespace Main

/-- What `qos_dropper_run` computes in floating point: the time is converted as it is for the
meter. -/
def redEnv (factor : BitVec 8 → BitVec 16 → BitVec 16) (m : Meter) : RedEnv where
  calcQemptyFactor := factor
  ctime flow time := m.startTimes flow + toUint64 (nanoToCycles m.hz time)

/-- One packet: its flow and its length, the colour it is given and the decision about it. -/
structure Packet where
  flow : Fin appFlowsMax
  pktLen : BitVec 32
  color : QosColor
  pass : ℤ

/-- A packet is metered, offered to the dropper and counted. -/
def handle (factor : BitVec 8 → BitVec 16 → BitVec 16) (flow : Fin appFlowsMax)
    (pktLen : BitVec 32) (s : Main) : Packet × Main :=
  let metered := s.meter.qosMeterRun ⟨flow, pktLen, s.time⟩
  let dropped := s.dropper.qosDropperRun (redEnv factor s.meter) flow metered.1 s.time
  (⟨flow, pktLen, metered.1, dropped.1⟩,
    { s with
      meter := metered.2
      dropper := dropped.2
      cntSend := Function.update s.cntSend flow (s.cntSend flow + pktLen)
      cntPass := Function.update s.cntPass flow
        (s.cntPass flow + if dropped.1 ≠ 0 then 0 else pktLen) })

/-- The body of the inner loop: the packet, and the variables afterwards. -/
def packet (factor : BitVec 8 → BitVec 16 → BitVec 16) (rand : ℕ → ℕ) (s : Main) : Packet × Main :=
  let flow : Fin appFlowsMax := ⟨rand s.drawn % appFlowsMax, Nat.mod_lt _ (by decide)⟩
  let pktLen := BitVec.ofNat 32 (128 + rand (s.drawn + 1) % 1024)
  handle factor flow pktLen { s with drawn := s.drawn + 2 }

/-- Some rounds of the inner loop. -/
def packets (factor : BitVec 8 → BitVec 16 → BitVec 16) (rand : ℕ → ℕ) (n : ℕ) (s : Main) : Main :=
  (fun s => (packet factor rand s).2)^[n] s

/-- The number of packets in the burst that begins. -/
def burst (rand : ℕ → ℕ) (s : Main) : ℕ := 500 + rand s.drawn % 1000

/-- The start of a burst. -/
def draw (s : Main) : Main := { s with drawn := s.drawn + 1 }

/-- The body of the outer loop. -/
def period (factor : BitVec 8 → BitVec 16 → BitVec 16) (rand : ℕ → ℕ) (s : Main) : Main :=
  let s' := packets factor rand (burst rand s) s.draw
  { s' with time := s'.time + 1000000 }

/-- The variables before the outer loop, whatever the static variables held. -/
def init (hz : BitVec 64) (start metered : Fin appFlowsMax → BitVec 64) (rteRand : BitVec 32)
    (m : Meter) (d : Dropper) : Except ℤ Main := do
  let meter ← Meter.qosMeterInit hz start metered m
  let dropper ← Dropper.qosDropperInit appRedParams rteRand d
  return {
    meter := meter
    dropper := dropper
    time := 0
    cntSend := fun _ => 0
    cntPass := fun _ => 0
    drawn := 0 }

/-- The variables after some rounds of the outer loop; `main` prints its counters after ten. -/
def periods (factor : BitVec 8 → BitVec 16 → BitVec 16) (rand : ℕ → ℕ) (n : ℕ) (s : Main) : Main :=
  (period factor rand)^[n] s

end Main
end NetLabs.Qos
