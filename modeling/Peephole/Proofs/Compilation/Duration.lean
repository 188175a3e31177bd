import Peephole.Proofs.Compilation.Cost
import Peephole.Proofs.Cost.Duration

/-!
# How long compiled circuits take

The duration that a report tells is the time of the greedy layers, and an optimizer that drops a
gate may make the greedy layers slower: a gate that opened a layer is gone, its neighbours move up
into the layer before, and slow gates that ran together come to stand in two layers
(`parted_takes_twice_as_long`). So much is certain: the layers behind the first one count at most
twice, nothing is lost if all gates take equally long, and what is left can always be cut so that it
takes no longer than before (`compile_duration_bounded`).
-/

namespace Peephole

open Binary64 (exactSum)

namespace Compiler

/-- On a device that tells durations, the reports add up the times of the layers. Added exactly,
what is left takes at most as long as the circuit did and the layers of that behind the first once
more, which is at most twice as long, and no longer than the circuit if all its gates take equally
long. There is always a cut of what is left that takes no longer. -/
theorem compile_duration_bounded {settings asked : Settings} {compiler : Compiler}
    {circuit : Circuit Float} {rules : Device.Rules} {maker : Maker} {arguments : Arguments}
    {device : Device Float} {table : Calibration Float} {tolerance : Float}
    (wellFormed : circuit.WellFormed)
    (tolerant : compiler.optimizer.tolerance = some tolerance)
    (made : Device.ofRequest rules asked maker arguments = .ok device)
    (timed : device.durations = some table)
    (limited : compiler.toFixedPoint = true →
      ∃ limit, Optimizer.roundsOf settings.maxFixedPointIterations = .ok limit) :
    ∃ compilation, compiler.compile settings (some device) circuit = .ok compilation ∧
      compilation.before.duration = some ((Cost.layerTimes table circuit.gates).foldl
        (fun total time => total + time) 0) ∧
      compilation.after.duration = some ((Cost.layerTimes table compilation.optimized.gates).foldl
        (fun total time => total + time) 0) ∧
      exactSum (Cost.layerTimes table compilation.optimized.gates) ≤
        exactSum (Cost.layerTimes table circuit.gates) +
          exactSum (Cost.layerTimes table circuit.gates).tail ∧
      exactSum (Cost.layerTimes table compilation.optimized.gates) ≤
        2 * exactSum (Cost.layerTimes table circuit.gates) ∧
      (∀ time, (∀ gate ∈ circuit.gates, device.duration? gate.kind.name = some time) →
        exactSum (Cost.layerTimes table compilation.optimized.gates) ≤
          exactSum (Cost.layerTimes table circuit.gates)) ∧
      ∃ cut, Schedule.IsCut compilation.optimized.gates cut ∧
        exactSum (cut.map (Cost.slowest (Cost.timeOf table))) ≤
          exactSum (Cost.layerTimes table circuit.gates) := by
  have within := Device.within_durations_of_ofRequest made timed
  have available : Cost.deviceFor settings compiler.fallbackRate (some device) circuit =
      .ok device := rfl
  obtain ⟨gates, records, thinned, compiled⟩ :=
    exists_compile_eq wellFormed tolerant available limited
  have bounded := Cost.exactSum_layerTimes_le_of_thinned within thinned
  have twice : exactSum (Cost.layerTimes table gates) ≤
      2 * exactSum (Cost.layerTimes table circuit.gates) := by
    have behind := Binary64.exactSum_tail_le (Cost.layerTimes table circuit.gates)
    omega
  refine ⟨_, compiled, Cost.duration?_eq timed _, Cost.duration?_eq timed _, bounded, twice, ?_,
    Cost.exists_cut_exactSum_le within thinned⟩
  intro time uniform
  have same : ∀ gate ∈ circuit.gates, Cost.timeOf table gate.kind = time := by
    intro gate member
    have told := uniform gate member
    rw [Device.duration?, timed, Option.map_some] at told
    exact Option.some.inj told
  exact Cost.exactSum_layerTimes_le_of_uniform within thinned same

/-! ## Measurements that ran together -/

/-- Three qubits in a line, of which measuring one takes long and nothing else takes any time. -/
def slowReading : Arguments where
  positional := [.int 3]
  named := [(.text "gate_durations", .record [("MEASURE", .float 5000.0)])]

def readingTimes : Calibration Float :=
  [("MEASURE", 5000.0)]

theorem exists_slowReading :
    ∃ device, Device.ofRequest (fun _ => none) Settings.standard .line slowReading = .ok device ∧
      device.durations = some readingTimes :=
  exists_eq_ok_of_toOption (by decide +kernel)

/-- Two gates that cancel, one of them in the layer of two measurements. -/
def parted : Circuit Float :=
  (Circuit.empty ⟨3, 2⟩ ⟨.null, []⟩).replaceGates
    [⟨.fixed .z 0, []⟩, ⟨.fixed .z 2, []⟩, ⟨.fixed .z 0, []⟩, ⟨.measure 1 0, []⟩,
      ⟨.measure 2 1, []⟩]

theorem wellFormed_parted : parted.WellFormed :=
  Circuit.wellFormed_of_within (by decide) (by decide)

/-- A bound that is reached: the layers of what is left take as long as all layers and the second
one. -/
theorem parted_bounded :
    parted.WellFormed ∧
      ∃ device, Device.ofRequest (fun _ => none) Settings.standard .line slowReading = .ok device ∧
        device.durations = some readingTimes ∧
        ∃ compilation, compile Settings.standard ⟨⟨[.cancelInverses], some 1e-10⟩, false, .null⟩
            (some device) parted = .ok compilation ∧
          exactSum (Cost.layerTimes readingTimes compilation.optimized.gates) ≤
            exactSum (Cost.layerTimes readingTimes parted.gates) +
              exactSum (Cost.layerTimes readingTimes parted.gates).tail ∧
          exactSum (Cost.layerTimes readingTimes compilation.optimized.gates) ≤
            2 * exactSum (Cost.layerTimes readingTimes parted.gates) := by
  obtain ⟨device, made, timed⟩ := exists_slowReading
  have once : (⟨⟨[.cancelInverses], some 1e-10⟩, false, .null⟩ : Compiler).toFixedPoint = true →
      ∃ limit, Optimizer.roundsOf Settings.standard.maxFixedPointIterations = .ok limit :=
    fun repeated => absurd repeated Bool.false_ne_true
  obtain ⟨compilation, compiled, -, -, bounded, twice, -⟩ :=
    compile_duration_bounded wellFormed_parted rfl made timed once
  exact ⟨wellFormed_parted, device, made, timed, compilation, compiled, bounded, twice⟩

/-- Without the two gates the measurements fall into two layers, which take twice as long. -/
theorem parted_takes_twice_as_long :
    ∃ device, Device.ofRequest (fun _ => none) Settings.standard .line slowReading = .ok device ∧
      ∃ compilation, compile Settings.standard ⟨⟨[.cancelInverses], some 1e-10⟩, false, .null⟩
          (some device) parted = .ok compilation ∧
        compilation.before.duration = some 5000.0 ∧ compilation.after.duration = some 10000.0 ∧
        exactSum (Cost.layerTimes readingTimes compilation.optimized.gates) =
          2 * exactSum (Cost.layerTimes readingTimes parted.gates) ∧
        0 < exactSum (Cost.layerTimes readingTimes parted.gates) := by
  obtain ⟨device, made, timed⟩ := exists_slowReading
  have tolerant : (⟨⟨[.cancelInverses], some 1e-10⟩, false, .null⟩ :
      Compiler).optimizer.tolerance = some 1e-10 := rfl
  refine ⟨device, made, _, compile_once_eq wellFormed_parted tolerant rfl rfl, ?_, ?_, ?_,
    by decide +kernel⟩
  · refine (Cost.duration?_eq timed parted).trans ?_
    decide +kernel
  · refine (Cost.duration?_eq timed _).trans ?_
    decide +kernel
  · change exactSum (Cost.layerTimes readingTimes
      (Pass.applyAll (Angle.isBelow 1e-10) [.cancelInverses] parted.gates)) = _
    decide +kernel

end Compiler

end Peephole
