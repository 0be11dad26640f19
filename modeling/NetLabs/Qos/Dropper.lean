import Mathlib.Data.Int.Notation
import Mathlib.Logic.Function.Basic
import Mathlib.Tactic.Common
import NetLabs.Lib.Transition

/-!
# The dropper

`qos_dropper_init` and `qos_dropper_run` of `lab3/qos.c`, with what they use of DPDK's
`rte_red.h` and `rte_red.c`. Every integer has the width it has there. Two functions compute
with floating-point numbers and are arguments, collected in `RedEnv`: the scaling factor for an
idle queue, whose tables are filled with `pow` and `log2`, and the conversion of a time to
cycles.

One queue counter per flow is shared by the three averages of its colours. An average moves only
when a packet of its colour arrives; the counter grows with every packet that passes, and is
reset when the time changes.
-/

namespace NetLabs.Qos

open NetLabs.Lib

/-- `APP_FLOWS_MAX` -/
abbrev appFlowsMax : ℕ := 4

/-- `enum qos_color` -/
inductive QosColor
  | green
  | yellow
  | red
deriving DecidableEq

/-- The values of the loop over `e_RTE_METER_COLORS`, in order. -/
def QosColor.all : List QosColor := [.green, .yellow, .red]

/-! ## `rte_red` -/

/-- `RTE_RED_SCALING` -/
abbrev redScaling : ℕ := 10

/-- `struct rte_red_params` -/
structure RedParams where
  minTh : BitVec 16
  maxTh : BitVec 16
  maxpInv : BitVec 16
  wqLog2 : BitVec 16

/-- `struct rte_red_config` -/
structure RedConfig where
  minTh : BitVec 32
  maxTh : BitVec 32
  paConst : BitVec 32
  maxpInv : BitVec 8
  wqLog2 : BitVec 8

/-- `struct rte_red` -/
structure Red where
  avg : BitVec 32
  count : BitVec 32
  qTime : BitVec 64

/-- `rte_red_rand_val` and `rte_red_rand_seed` -/
structure RedRand where
  val : BitVec 32
  seed : BitVec 32

/-- `rte_fast_rand`: the number, and the new seed. -/
def rteFastRand (seed : BitVec 32) : BitVec 32 × BitVec 32 :=
  let seed' := 214013 * seed + 2531011
  (seed' >>> 10, seed')

/-- The next random number is saved in `rte_red_rand_val`. -/
def RedRand.refresh (r : RedRand) : RedRand :=
  ⟨(rteFastRand r.seed).1, (rteFastRand r.seed).2⟩

/-- `rte_red_rt_data_init`, of a pointer that is not null. -/
def rteRedRtDataInit : Red := ⟨0, 0, 0⟩

/-- `rte_red_config_init`, of a pointer that is not null: the error code or the configuration.
The global initialisation, done at the first call, is in `Dropper.configure`. -/
def rteRedConfigInit (p : RedParams) : Except ℤ RedConfig :=
  if 1023 < p.maxTh then .error (-2)
  else if p.maxTh ≤ p.minTh then .error (-3)
  else if 12 < p.wqLog2 then .error (-4)
  else if p.wqLog2 < 1 then .error (-5)
  else if p.maxpInv < 1 then .error (-6)
  else if 255 < p.maxpInv then .error (-7)
  else .ok
    { minTh := p.minTh.setWidth 32 <<< (p.wqLog2.toNat + redScaling)
      maxTh := p.maxTh.setWidth 32 <<< (p.wqLog2.toNat + redScaling)
      paConst := (2 * (p.maxTh.setWidth 32 - p.minTh.setWidth 32) * p.maxpInv.setWidth 32) <<<
        redScaling
      maxpInv := p.maxpInv.setWidth 8
      wqLog2 := p.wqLog2.setWidth 8 }

/-- What is computed in floating point: `__rte_red_calc_qempty_factor`, and the time in cycles
that a flow's packet carries. -/
structure RedEnv where
  calcQemptyFactor : BitVec 8 → BitVec 16 → BitVec 16
  ctime : Fin appFlowsMax → BitVec 64 → BitVec 64

/-- `rte_red_enqueue_empty` -/
def rteRedEnqueueEmpty (env : RedEnv) (cfg : RedConfig) (red : Red) (time : BitVec 64) :
    ℤ × Red :=
  let timeDiff := time - red.qTime
  -- `RTE_RED_S` is `1 << 22`
  let m := timeDiff / 4194304
  let avg :=
    if 65536 ≤ m then 0
    else (red.avg >>> redScaling) * (env.calcQemptyFactor cfg.wqLog2 (m.setWidth 16)).setWidth 32
  (0, { red with avg := avg, count := red.count + 1 })

/-- `__rte_red_drop` -/
def rteRedDrop (cfg : RedConfig) (red : Red) (rand : RedRand) : Bool × RedRand :=
  let paNum := (red.avg - cfg.minTh) >>> cfg.wqLog2.toNat
  let paNumCount := red.count * paNum
  if cfg.paConst ≤ paNumCount then (true, rand)
  else
    let paDen := cfg.paConst - paNumCount
    if rand.val % paDen < paNum then (true, rand.refresh) else (false, rand)

/-- The new average of `rte_red_enqueue_nonempty`. -/
def redAvg (cfg : RedConfig) (avg q : BitVec 32) : BitVec 32 :=
  avg + ((q <<< redScaling) - (avg >>> cfg.wqLog2.toNat))

/-- `rte_red_enqueue_nonempty` -/
def rteRedEnqueueNonempty (cfg : RedConfig) (red : Red) (rand : RedRand) (q : BitVec 32) :
    ℤ × Red × RedRand :=
  let red := { red with avg := redAvg cfg red.avg q }
  if red.avg < cfg.minTh then (0, { red with count := red.count + 1 }, rand)
  else if red.avg < cfg.maxTh then
    let r := rteRedDrop cfg red rand
    if r.1 then (2, { red with count := 0 }, r.2)
    else (0, { red with count := red.count + 1 }, r.2)
  else (1, { red with count := 0 }, rand)

/-- `rte_red_enqueue` -/
def rteRedEnqueue (env : RedEnv) (cfg : RedConfig) (red : Red) (rand : RedRand) (q : BitVec 32)
    (time : BitVec 64) : ℤ × Red × RedRand :=
  if q ≠ 0 then rteRedEnqueueNonempty cfg red rand q
  else
    let r := rteRedEnqueueEmpty env cfg red time
    (r.1, r.2, rand)

/-! ## `qos_dropper_init` and `qos_dropper_run` -/

/-- `app_red_params` -/
def appRedParams : Fin appFlowsMax → QosColor → RedParams
  | 0, .green => ⟨1022, 1023, 255, 9⟩
  | 0, .yellow => ⟨16, 32, 5, 9⟩
  | 0, .red => ⟨1, 16, 1, 9⟩
  | 1, .green => ⟨64, 1023, 10, 9⟩
  | 1, .yellow => ⟨16, 32, 3, 9⟩
  | 1, .red => ⟨1, 16, 1, 9⟩
  | 2, .green => ⟨64, 1023, 10, 9⟩
  | 2, .yellow => ⟨4, 16, 2, 9⟩
  | 2, .red => ⟨1, 8, 1, 9⟩
  | 3, .green => ⟨64, 1023, 10, 9⟩
  | 3, .yellow => ⟨2, 6, 3, 9⟩
  | 3, .red => ⟨1, 3, 1, 9⟩

/-- The static variables of the dropper, and the globals of `rte_red.c`. -/
structure Dropper where
  configs : Fin appFlowsMax → QosColor → RedConfig
  reds : Fin appFlowsMax → QosColor → Red
  queues : Fin appFlowsMax → BitVec 32
  lastTime : BitVec 64
  rand : RedRand
  initDone : Bool

/-- Replaces one entry of a table. -/
def setEntry {α : Type*} (f : Fin appFlowsMax → QosColor → α) (i : Fin appFlowsMax) (j : QosColor)
    (x : α) : Fin appFlowsMax → QosColor → α :=
  fun i' j' => if i' = i ∧ j' = j then x else f i' j'

namespace Dropper

/-- The body of the inner loop of `qos_dropper_init`; `rteRand` is what `rte_rand` returns, should
this be the first call of `rte_red_config_init`. -/
def configure (params : Fin appFlowsMax → QosColor → RedParams) (rteRand : BitVec 32)
    (d : Dropper) (i : Fin appFlowsMax) (j : QosColor) : Except ℤ Dropper := do
  let cfg ← rteRedConfigInit (params i j)
  return { d with
    reds := setEntry d.reds i j rteRedRtDataInit
    configs := setEntry d.configs i j cfg
    rand := if d.initDone then d.rand else RedRand.refresh ⟨d.rand.val, rteRand⟩
    initDone := true }

/-- The body of the outer loop: the three colours of a flow, then its queue. -/
def initFlow (params : Fin appFlowsMax → QosColor → RedParams) (rteRand : BitVec 32)
    (d : Dropper) (i : Fin appFlowsMax) : Except ℤ Dropper := do
  let d ← QosColor.all.foldlM (fun d j => d.configure params rteRand i j) d
  return { d with queues := Function.update d.queues i 0 }

/-- `qos_dropper_init` with a table of parameters, whatever the static variables held. -/
def qosDropperInit (params : Fin appFlowsMax → QosColor → RedParams) (rteRand : BitVec 32)
    (d : Dropper) : Except ℤ Dropper := do
  let d ← (List.finRange appFlowsMax).foldlM (fun d i => d.initFlow params rteRand i) d
  return { d with lastTime := 0 }

/-- The queues are reset when the time has changed. -/
def reset (time : BitVec 64) (d : Dropper) : Dropper :=
  if time ≠ d.lastTime then { d with queues := fun _ => 0, lastTime := time } else d

/-- `qos_dropper_run`: what it returns, and the static variables afterwards. -/
def qosDropperRun (env : RedEnv) (flow : Fin appFlowsMax) (color : QosColor) (time : BitVec 64)
    (d : Dropper) : ℤ × Dropper :=
  let d := d.reset time
  let r := rteRedEnqueue env (d.configs flow color) (d.reds flow color) d.rand (d.queues flow)
    (env.ctime flow time)
  let d := { d with reds := setEntry d.reds flow color r.2.1, rand := r.2.2 }
  if r.1 = 0 then (0, { d with queues := Function.update d.queues flow (d.queues flow + 1) })
  else (1, d)

end Dropper

/-! ## Runs -/

/-- One call, together with the values the random number generator happens to hold. -/
structure DropperCall where
  flow : Fin appFlowsMax
  color : QosColor
  time : BitVec 64
  rand : RedRand

namespace Dropper

/-- After a successful initialisation with the table of `qos.c`. -/
def Init (d : Dropper) : Prop :=
  ∃ rteRand before, qosDropperInit appRedParams rteRand before = .ok d

/-- One call; it always returns. -/
def step (env : RedEnv) (d : Dropper) (c : DropperCall) : Option Dropper :=
  some (qosDropperRun env c.flow c.color c.time { d with rand := c.rand }).2

end Dropper
end NetLabs.Qos
