import NetLabs.Lib.Marker
import NetLabs.Qos.Meter

/-!
# The colour-aware and the two-rate meters

What `rte_meter.h` and `rte_meter.c` have beside the meter of `lab3/qos.c`: the check of the
single-rate meter that heeds the colour a packet comes with, and the two-rate meter with both of its
checks. A meter that is used again and again is a `Marker`: time moves its buckets, and each packet
is given a colour.
-/

namespace NetLabs.Qos

open NetLabs.Lib

/-- A call of a check: the time, the length of the packet and the colour it comes with. -/
abbrev CheckCall := Stamped (BitVec 64) (BitVec 32) RteMeterColor

/-! ## The single-rate meter -/

namespace Srtcm

/-- The second half of `rte_meter_srtcm_color_aware_check`, whose first half is that of
`rte_meter_srtcm_color_blind_check`. -/
def colorLogicAware (pktLen : BitVec 32) (pktColor : RteMeterColor) (m : Srtcm) :
    RteMeterColor × Srtcm :=
  if pktColor = .green ∧ pktLen.setWidth 64 ≤ m.tc then
    (.green, { m with tc := m.tc - pktLen.setWidth 64 })
  else if pktColor ≠ .red ∧ pktLen.setWidth 64 ≤ m.te then
    (.yellow, { m with te := m.te - pktLen.setWidth 64 })
  else (.red, m)

/-- `rte_meter_srtcm_color_aware_check` -/
def rteMeterSrtcmColorAwareCheck (time : BitVec 64) (pktLen : BitVec 32)
    (pktColor : RteMeterColor) (m : Srtcm) : RteMeterColor × Srtcm :=
  (m.bucketUpdate time).colorLogicAware pktLen pktColor

/-- The colour-aware meter. -/
def marker : Marker Srtcm (BitVec 64) (BitVec 32) RteMeterColor where
  advance := bucketUpdate
  take := colorLogicAware

/-- The colour-blind meter. -/
def blind : Marker Srtcm (BitVec 64) (BitVec 32) RteMeterColor where
  advance := bucketUpdate
  take pktLen _ := colorLogic pktLen

lemma step_marker (m : Srtcm) (c : CheckCall) :
    marker.step m c = m.rteMeterSrtcmColorAwareCheck c.time c.body c.mark := rfl

lemma step_blind (m : Srtcm) (c : CheckCall) :
    blind.step m c = m.rteMeterSrtcmColorBlindCheck c.time c.body := rfl

end Srtcm

/-! ## The two-rate meter -/

/-- `struct rte_meter_trtcm_params` -/
structure TrtcmParams where
  cir : BitVec 64
  pir : BitVec 64
  cbs : BitVec 64
  pbs : BitVec 64

/-- `struct rte_meter_trtcm` -/
@[ext] structure Trtcm where
  timeTc : BitVec 64
  timeTp : BitVec 64
  tc : BitVec 64
  tp : BitVec 64
  cbs : BitVec 64
  pbs : BitVec 64
  cirPeriod : BitVec 64
  cirBytesPerPeriod : BitVec 64
  pirPeriod : BitVec 64
  pirBytesPerPeriod : BitVec 64

/-- `rte_meter_trtcm_config`, of pointers that are not null: the error code or the meter. -/
def rteMeterTrtcmConfig (hz now : BitVec 64) (p : TrtcmParams) : Except ℤ Trtcm :=
  if p.cir = 0 ∨ p.pir = 0 ∨ p.pir < p.cir ∨ p.cbs = 0 ∨ p.pbs = 0 then .error (-2)
  else .ok
    { timeTc := now
      timeTp := now
      tc := p.cbs
      tp := p.pbs
      cbs := p.cbs
      pbs := p.pbs
      cirPeriod := (rteMeterGetTbParams hz p.cir).1
      cirBytesPerPeriod := (rteMeterGetTbParams hz p.cir).2
      pirPeriod := (rteMeterGetTbParams hz p.pir).1
      pirBytesPerPeriod := (rteMeterGetTbParams hz p.pir).2 }

namespace Trtcm

/-- The first half of `rte_meter_trtcm_color_blind_check` and of
`rte_meter_trtcm_color_aware_check`, the bucket update. -/
def bucketUpdate (time : BitVec 64) (m : Trtcm) : Trtcm :=
  let nPeriodsTc := (time - m.timeTc) / m.cirPeriod
  let nPeriodsTp := (time - m.timeTp) / m.pirPeriod
  let tc := m.tc + nPeriodsTc * m.cirBytesPerPeriod
  let tp := m.tp + nPeriodsTp * m.pirBytesPerPeriod
  { m with
    timeTc := m.timeTc + nPeriodsTc * m.cirPeriod
    timeTp := m.timeTp + nPeriodsTp * m.pirPeriod
    tc := if m.cbs < tc then m.cbs else tc
    tp := if m.pbs < tp then m.pbs else tp }

/-- The second half of `rte_meter_trtcm_color_blind_check`. -/
def colorLogic (pktLen : BitVec 32) (m : Trtcm) : RteMeterColor × Trtcm :=
  if m.tp < pktLen.setWidth 64 then (.red, m)
  else if m.tc < pktLen.setWidth 64 then (.yellow, { m with tp := m.tp - pktLen.setWidth 64 })
  else (.green, { m with tc := m.tc - pktLen.setWidth 64, tp := m.tp - pktLen.setWidth 64 })

/-- `rte_meter_trtcm_color_blind_check` -/
def rteMeterTrtcmColorBlindCheck (time : BitVec 64) (pktLen : BitVec 32) (m : Trtcm) :
    RteMeterColor × Trtcm :=
  (m.bucketUpdate time).colorLogic pktLen

/-- The second half of `rte_meter_trtcm_color_aware_check`. -/
def colorLogicAware (pktLen : BitVec 32) (pktColor : RteMeterColor) (m : Trtcm) :
    RteMeterColor × Trtcm :=
  if pktColor = .red ∨ m.tp < pktLen.setWidth 64 then (.red, m)
  else if pktColor = .yellow ∨ m.tc < pktLen.setWidth 64 then
    (.yellow, { m with tp := m.tp - pktLen.setWidth 64 })
  else (.green, { m with tc := m.tc - pktLen.setWidth 64, tp := m.tp - pktLen.setWidth 64 })

/-- `rte_meter_trtcm_color_aware_check` -/
def rteMeterTrtcmColorAwareCheck (time : BitVec 64) (pktLen : BitVec 32)
    (pktColor : RteMeterColor) (m : Trtcm) : RteMeterColor × Trtcm :=
  (m.bucketUpdate time).colorLogicAware pktLen pktColor

/-- The colour-aware meter. -/
def marker : Marker Trtcm (BitVec 64) (BitVec 32) RteMeterColor where
  advance := bucketUpdate
  take := colorLogicAware

/-- The colour-blind meter. -/
def blind : Marker Trtcm (BitVec 64) (BitVec 32) RteMeterColor where
  advance := bucketUpdate
  take pktLen _ := colorLogic pktLen

lemma step_marker (m : Trtcm) (c : CheckCall) :
    marker.step m c = m.rteMeterTrtcmColorAwareCheck c.time c.body c.mark := rfl

lemma step_blind (m : Trtcm) (c : CheckCall) :
    blind.step m c = m.rteMeterTrtcmColorBlindCheck c.time c.body := rfl

end Trtcm
end NetLabs.Qos
