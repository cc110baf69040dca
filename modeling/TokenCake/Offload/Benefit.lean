import Mathlib.Tactic.GCongr
import TokenCake.Offload.Lifecycle

/-!
# The benefit of preserving a prefix

A finished request's prefix is weighed against the demand of the waiting requests
for GPU blocks, with the times as exact rationals.  A prefix that is selected stays
selected when the offer gets better and the pressure rises.
-/

namespace TokenCake

/-- The demand for GPU blocks. -/
structure Pressure where
  usage : ℚ
  free : Int
  waitingCount : Nat
  waitingDemand : Int
  criticalDemand : Int
  sharedAvailable : Int
  fitDemand : Int

/-- The answers to a prefix that is evaluated. -/
inductive Metric where
  | selected
  | notEligible
  | empty
  | noWaitingDemand
  | cpuCapacity
  | unprofitable
  | lowPressure
deriving DecidableEq

/-- The outcome of an evaluation. -/
structure Benefit where
  reason : Metric
  score : ℚ

/-- The keyword arguments of `evaluateBenefit`. -/
structure PrefixOffer where
  blocks : Int
  cpuAvailable : Int
  cpuNeeded : Int
  duration : ℚ
  transferTime : ℚ
  agentScore : ℚ := 0
  churnPenalty : ℚ := 0

section Evaluation

variable (settings : OffloadConfig) (metadata : TokenCakeMetadata) (pressure : Pressure)
  (offer : PrefixOffer)

namespace PrefixOffer

/-- The importance of the agent, raised by its score and bounded. -/
def importance : ℚ :=
  min 10 (max metadata.importance (min 10 (offer.agentScore / 2)))

/-- Whether the application is about to end. -/
def nearCompletion : Bool :=
  metadata.nearCompletion ||
    (decide (metadata.applicationMaxDepth > 0) && decide (metadata.remainingDepth ≤ 1))

/-- The time by which the stall outlasts the transfer. -/
def margin : ℚ :=
  offer.duration - offer.transferTime

/-- The score of a pressed GPU cache. -/
def pressureScore : ℚ :=
  max 0 ((pressure.usage - settings.minGpuUsage) * 6) +
    min 2 ((pressure.waitingDemand : ℚ) / max 1 ((offer.blocks : ℚ) + 1))

/-- The score of waiting requests that would fit. -/
def fitScore : ℚ :=
  min 2 ((pressure.fitDemand : ℚ) / max 1 (offer.blocks : ℚ))

/-- The score of a long stall. -/
def stallScore : ℚ :=
  min 6 (offer.margin / max (1 / 4) offer.transferTime)

/-- The score of a stall that is long enough for both transfers. -/
def uploadSafety : ℚ :=
  if offer.duration ≥ 2 * offer.transferTime then 1 else -1

/-- The score of space on the CPU. -/
def cpuScore : ℚ :=
  if offer.cpuAvailable ≥ offer.cpuNeeded then 1 else -4

/-- The score of an offer. -/
def score : ℚ :=
  offer.stallScore + offer.pressureScore settings pressure + offer.fitScore pressure +
    offer.uploadSafety + offer.cpuScore - 35 / 100 * offer.importance metadata -
    (if nearCompletion metadata then 2 else 0) - offer.churnPenalty

/-- The GPU cache is nearly full, requests wait and the stall is long. -/
abbrev emergency : Prop :=
  pressure.usage ≥ settings.highPressureGpuUsage ∧
    offer.margin ≥ max (4 * offer.transferTime) 5 ∧ pressure.waitingCount > 0

end PrefixOffer

namespace Pressure

/-- The GPU cache is hardly used. -/
abbrev low : Prop :=
  pressure.usage < settings.minGpuUsage

/-- The free blocks suffice for the waiting requests, and the shared ones for the critical ones. -/
abbrev noQueue : Prop :=
  pressure.waitingDemand ≤ pressure.free ∧ pressure.criticalDemand ≤ pressure.sharedAvailable

end Pressure

open PrefixOffer in
/-- Decide on an offer.  The reasons are tried in the order of the source, and the first one that
applies is reported. -/
def evaluateBenefit : Benefit :=
  let emergency := offer.emergency settings pressure
  let score := offer.score settings metadata pressure
  let reason : Metric :=
    if !metadata.offloadEligible || !metadata.reusablePrefix then .notEligible
    else if offer.blocks ≤ 0 then .empty
    else if pressure.fitDemand ≤ 0 then .noWaitingDemand
    else if offer.cpuAvailable < offer.cpuNeeded then .cpuCapacity
    else if offer.duration ≤ offer.transferTime ∨
        offer.margin < max (5 / 100) (2 * offer.transferTime) ∧ ¬emergency then .unprofitable
    else if pressure.low settings ∧ (pressure.noQueue ∨ pressure.fitDemand < offer.blocks ∨
        pressure.waitingCount = 0) then .lowPressure
    else if offer.importance metadata ≥ 8 ∧ ¬emergency ∧
          (nearCompletion metadata ∨ offer.margin < max (1 / 2) (8 * offer.transferTime) ∨
            offer.uploadSafety < 0) ∨
        score < settings.scoreThreshold ∧ ¬emergency then .unprofitable
    else .selected
  { reason, score }

end Evaluation

/-- More demand for fewer free blocks. -/
structure Pressure.Rises (pressure risen : Pressure) : Prop where
  usage : pressure.usage ≤ risen.usage
  free : risen.free ≤ pressure.free
  waitingCount : pressure.waitingCount ≤ risen.waitingCount
  waitingDemand : pressure.waitingDemand ≤ risen.waitingDemand
  criticalDemand : pressure.criticalDemand ≤ risen.criticalDemand
  sharedAvailable : risen.sharedAvailable ≤ pressure.sharedAvailable
  fitDemand : pressure.fitDemand ≤ risen.fitDemand

/-- A longer stall, a cheaper transfer, more CPU blocks, a less important agent and
less churn. -/
structure PrefixOffer.Improves (offer better : PrefixOffer) : Prop where
  blocks : better.blocks = offer.blocks
  cpuNeeded : better.cpuNeeded = offer.cpuNeeded
  duration : offer.duration ≤ better.duration
  transferTime : better.transferTime ≤ offer.transferTime
  cpuAvailable : offer.cpuAvailable ≤ better.cpuAvailable
  agentScore : better.agentScore ≤ offer.agentScore
  churnPenalty : better.churnPenalty ≤ offer.churnPenalty

variable {settings : OffloadConfig} {metadata : TokenCakeMetadata} {pressure risen : Pressure}
  {offer better : PrefixOffer}

namespace PrefixOffer.Improves

section

variable (improves : offer.Improves better)
include improves

theorem margin_le : offer.margin ≤ better.margin :=
  sub_le_sub improves.duration improves.transferTime

theorem importance_le : better.importance metadata ≤ offer.importance metadata := by
  have score := improves.agentScore
  unfold importance
  gcongr

theorem uploadSafety_le : offer.uploadSafety ≤ better.uploadSafety := by
  have duration := improves.duration
  have transfer := improves.transferTime
  unfold uploadSafety
  split_ifs <;> linarith

theorem cpuScore_le : offer.cpuScore ≤ better.cpuScore := by
  have available := improves.cpuAvailable
  unfold cpuScore
  rw [improves.cpuNeeded]
  split_ifs with first second
  · exact le_rfl
  · exact absurd (first.trans available) second
  · norm_num
  · exact le_rfl

/-- The quotient grows because the margin is not negative. -/
theorem stallScore_le (profitable : 0 ≤ offer.margin) : offer.stallScore ≤ better.stallScore := by
  have margin := improves.margin_le
  have transfer := improves.transferTime
  unfold stallScore
  gcongr
  exact profitable.trans margin

variable (rises : pressure.Rises risen)
include rises

theorem emergency (urgent : offer.emergency settings pressure) :
    better.emergency settings risen := by
  obtain ⟨usage, margin, waiting⟩ := urgent
  refine ⟨usage.trans rises.usage, ?_, waiting.trans_le rises.waitingCount⟩
  calc max (4 * better.transferTime) 5 ≤ max (4 * offer.transferTime) 5 := by
        gcongr
        exact improves.transferTime
    _ ≤ offer.margin := margin
    _ ≤ better.margin := improves.margin_le

theorem score_le (profitable : 0 ≤ offer.margin) :
    offer.score settings metadata pressure ≤ better.score settings metadata risen := by
  have stall := improves.stallScore_le profitable
  have used : offer.pressureScore settings pressure ≤ better.pressureScore settings risen := by
    have usage := rises.usage
    have demand := rises.waitingDemand
    unfold pressureScore
    rw [improves.blocks]
    gcongr
  have fit : offer.fitScore pressure ≤ better.fitScore risen := by
    have demand := rises.fitDemand
    unfold fitScore
    rw [improves.blocks]
    gcongr
  have upload := improves.uploadSafety_le
  have cpu := improves.cpuScore_le
  have importance : better.importance metadata ≤ offer.importance metadata :=
    improves.importance_le
  have churn := improves.churnPenalty
  unfold score
  linarith

end

end PrefixOffer.Improves

open PrefixOffer in
theorem evaluateBenefit_selected_iff :
    (evaluateBenefit settings metadata pressure offer).reason = .selected ↔
      (metadata.offloadEligible ∧ metadata.reusablePrefix) ∧ 0 < offer.blocks ∧
      0 < pressure.fitDemand ∧ offer.cpuNeeded ≤ offer.cpuAvailable ∧
      (offer.transferTime < offer.duration ∧ (offer.emergency settings pressure ∨
          max (5 / 100) (2 * offer.transferTime) ≤ offer.margin)) ∧
      (settings.minGpuUsage ≤ pressure.usage ∨
        ¬pressure.noQueue ∧ offer.blocks ≤ pressure.fitDemand ∧ 0 < pressure.waitingCount) ∧
      (offer.emergency settings pressure ∨
        settings.scoreThreshold ≤ offer.score settings metadata pressure ∧
          (8 ≤ offer.importance metadata → nearCompletion metadata = false ∧
            max (1 / 2) (8 * offer.transferTime) ≤ offer.margin ∧ 0 ≤ offer.uploadSafety)) := by
  simp only [evaluateBenefit]
  split_ifs <;> grind

/-- A selected prefix stays selected for a better offer under a higher pressure. -/
theorem evaluateBenefit_monotone (improves : offer.Improves better) (rises : pressure.Rises risen)
    (selected : (evaluateBenefit settings metadata pressure offer).reason = .selected) :
    (evaluateBenefit settings metadata risen better).reason = .selected := by
  obtain ⟨eligible, blocks, fit, cpu, ⟨duration, profit⟩, queue, worth⟩ :=
    evaluateBenefit_selected_iff.mp selected
  have margin := improves.margin_le
  have transfer := improves.transferTime
  rw [evaluateBenefit_selected_iff]
  refine ⟨eligible, improves.blocks ▸ blocks, fit.trans_le rises.fitDemand,
    improves.cpuNeeded ▸ cpu.trans improves.cpuAvailable, ⟨?_, ?_⟩, ?_, ?_⟩
  · exact (transfer.trans_lt duration).trans_le improves.duration
  · refine profit.imp (improves.emergency rises) fun enough => ?_
    exact (max_le_max le_rfl (by linarith)).trans (enough.trans margin)
  · refine queue.imp (fun usage => usage.trans rises.usage) fun ⟨pressed, fits, waiting⟩ => ?_
    refine ⟨fun calm => pressed ⟨?_, ?_⟩, improves.blocks ▸ fits.trans rises.fitDemand,
      waiting.trans_le rises.waitingCount⟩
    · exact rises.waitingDemand.trans (calm.1.trans rises.free)
    · exact rises.criticalDemand.trans (calm.2.trans rises.sharedAvailable)
  · refine worth.imp (improves.emergency rises) fun ⟨score, important⟩ => ⟨?_, fun high => ?_⟩
    · exact score.trans (improves.score_le rises (sub_nonneg.mpr duration.le))
    · obtain ⟨far, enough, safe⟩ := important (high.trans improves.importance_le)
      exact ⟨far, (max_le_max le_rfl (by linarith)).trans (enough.trans margin),
        safe.trans improves.uploadSafety_le⟩

/-- A full GPU with one waiting request, and a stall that gets longer. -/
theorem evaluateBenefit_longer_stall :
    let metadata : TokenCakeMetadata := { offloadEligible := true, reusablePrefix := true }
    let pressure : Pressure := ⟨9 / 10, 0, 1, 1, 1, 0, 1⟩
    let offer : PrefixOffer := ⟨1, 1, 1, 10, 1, 0, 0⟩
    (evaluateBenefit {} metadata pressure offer).reason = .selected ∧
      (evaluateBenefit {} metadata pressure { offer with duration := 20 }).reason = .selected := by
  intro metadata pressure offer
  have selected : (evaluateBenefit {} metadata pressure offer).reason = .selected := by
    decide +kernel
  exact ⟨selected, evaluateBenefit_monotone (by constructor <;> norm_num [offer])
    (by constructor <;> rfl) selected⟩

end TokenCake
