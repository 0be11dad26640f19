import Mathlib.Algebra.Order.Floor.Semiring
import NetLabs.Lib.Rounding
import NetLabs.Qos.Dropper

/-!
# The meter

`qos_meter_init` and `qos_meter_run` of `lab3/qos.c`, with what they use of DPDK's `rte_meter.h`
and `rte_meter.c`. Every integer has the width it has there, and every `double` is the rational
number it stands for, rounded after each operation; none of them leaves the range of the normal
numbers.

The readings of the time stamp counter are arguments: `start i` is what `qos_meter_init` stores in
`start_times[i]`, `metered i` what `rte_meter_srtcm_config` reads right after it.
-/

namespace NetLabs.Qos

open NetLabs.Lib

/-! ## `double` -/

/-- The `double` nearest to a number. -/
abbrev double (x : ℚ) : ℚ := roundTo 52 x

/-- The conversion of a `double` to `uint64_t`, of a value that is not negative and below `2 ^ 64`.
For other values it is undefined, and here reduced modulo `2 ^ 64`. -/
def toUint64 (x : ℚ) : BitVec 64 := BitVec.ofNat 64 ⌊x⌋₊

/-! ## `rte_meter` -/

/-- `enum rte_meter_color` -/
inductive RteMeterColor
  | green
  | yellow
  | red
deriving DecidableEq

/-- The conversion to `enum qos_color`, which numbers the colours alike. -/
def RteMeterColor.toQosColor : RteMeterColor → QosColor
  | .green => .green
  | .yellow => .yellow
  | .red => .red

/-- `struct rte_meter_srtcm_params` -/
structure SrtcmParams where
  cir : BitVec 64
  cbs : BitVec 64
  ebs : BitVec 64

/-- `struct rte_meter_srtcm` -/
structure Srtcm where
  time : BitVec 64
  tc : BitVec 64
  te : BitVec 64
  cbs : BitVec 64
  ebs : BitVec 64
  cirPeriod : BitVec 64
  cirBytesPerPeriod : BitVec 64

/-- `rte_meter_get_tb_params`: the period and the bytes per period. -/
def rteMeterGetTbParams (hz rate : BitVec 64) : BitVec 64 × BitVec 64 :=
  let period := double (double hz.toNat / double rate.toNat)
  -- `RTE_METER_TB_PERIOD_MIN` is 100
  if 100 ≤ period then (toUint64 period, 1)
  else
    let bytesPerPeriod := toUint64 ⌈double (100 / period)⌉₊
    (hz * bytesPerPeriod / rate, bytesPerPeriod)

/-- `rte_meter_srtcm_config`, of pointers that are not null: the error code or the meter. -/
def rteMeterSrtcmConfig (hz now : BitVec 64) (p : SrtcmParams) : Except ℤ Srtcm :=
  if p.cir = 0 ∨ (p.cbs = 0 ∧ p.ebs = 0) then .error (-2)
  else .ok
    { time := now
      tc := p.cbs
      te := p.ebs
      cbs := p.cbs
      ebs := p.ebs
      cirPeriod := (rteMeterGetTbParams hz p.cir).1
      cirBytesPerPeriod := (rteMeterGetTbParams hz p.cir).2 }

namespace Srtcm

/-- The first half of `rte_meter_srtcm_color_blind_check`, the bucket update. -/
def bucketUpdate (time : BitVec 64) (m : Srtcm) : Srtcm :=
  let timeDiff := time - m.time
  let nPeriods := timeDiff / m.cirPeriod
  let tc := m.tc + nPeriods * m.cirBytesPerPeriod
  let te := m.te
  { m with
    time := m.time + nPeriods * m.cirPeriod
    -- the tokens overflowing from `tc` go into the `te` bucket
    tc := if m.cbs < tc then m.cbs else tc
    te := if m.cbs < tc then (if m.ebs < te + (tc - m.cbs) then m.ebs else te + (tc - m.cbs))
      else te }

/-- Its second half, the colour logic. -/
def colorLogic (pktLen : BitVec 32) (m : Srtcm) : RteMeterColor × Srtcm :=
  if pktLen.setWidth 64 ≤ m.tc then (.green, { m with tc := m.tc - pktLen.setWidth 64 })
  else if pktLen.setWidth 64 ≤ m.te then (.yellow, { m with te := m.te - pktLen.setWidth 64 })
  else (.red, m)

/-- `rte_meter_srtcm_color_blind_check` -/
def rteMeterSrtcmColorBlindCheck (time : BitVec 64) (pktLen : BitVec 32) (m : Srtcm) :
    RteMeterColor × Srtcm :=
  (m.bucketUpdate time).colorLogic pktLen

end Srtcm

/-! ## `qos_meter_init` and `qos_meter_run` -/

/-- `app_srtcm_params` -/
def appSrtcmParams : Fin appFlowsMax → SrtcmParams
  | 0 => ⟨160000000, 10000 * 40, 10000 * 48⟩
  | 1 => ⟨80000000, 10000 * 7, 10000 * 36⟩
  | 2 => ⟨40000000, 1000 * 32, 10000 * 20⟩
  | 3 => ⟨20000000, 1000 * 16, 10000 * 16⟩

/-- The static variables of the meter. -/
@[ext] structure Meter where
  appFlows : Fin appFlowsMax → Srtcm
  startTimes : Fin appFlowsMax → BitVec 64
  hz : BitVec 64

/-- One call of `qos_meter_run`. -/
structure MeterCall where
  flow : Fin appFlowsMax
  pktLen : BitVec 32
  time : BitVec 64

/-- `time / NANO_PERSEC * hz`, for a time in nanoseconds. -/
def nanoToCycles (hz time : BitVec 64) : ℚ :=
  double (double (double time.toNat / 1000000000) * double hz.toNat)

namespace Meter

/-- The body of the loop of `qos_meter_init`. -/
def initFlow (start metered : Fin appFlowsMax → BitVec 64) (m : Meter) (i : Fin appFlowsMax) :
    Except ℤ Meter := do
  let m := { m with startTimes := Function.update m.startTimes i (start i) }
  let srtcm ← rteMeterSrtcmConfig m.hz (metered i) (appSrtcmParams i)
  return { m with appFlows := Function.update m.appFlows i srtcm }

/-- `qos_meter_init`, whatever the static variables held. -/
def qosMeterInit (hz : BitVec 64) (start metered : Fin appFlowsMax → BitVec 64) (m : Meter) :
    Except ℤ Meter :=
  (List.finRange appFlowsMax).foldlM (fun m i => m.initFlow start metered i) { m with hz := hz }

/-- `qos_meter_run`: the colour, and the static variables afterwards. -/
def qosMeterRun (m : Meter) (c : MeterCall) : QosColor × Meter :=
  let ctime := m.startTimes c.flow + toUint64 (nanoToCycles m.hz c.time)
  let r := (m.appFlows c.flow).rteMeterSrtcmColorBlindCheck ctime c.pktLen
  (r.1.toQosColor, { m with appFlows := Function.update m.appFlows c.flow r.2 })

/-- Any number of calls, each with the colour that is returned. -/
def record : Meter → List MeterCall → List (MeterCall × QosColor)
  | _, [] => []
  | m, c :: cs => (c, (m.qosMeterRun c).1) :: record (m.qosMeterRun c).2 cs

end Meter
end NetLabs.Qos
