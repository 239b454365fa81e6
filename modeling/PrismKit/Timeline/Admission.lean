import PrismKit.Timeline.Session

/-!
# Which programs start

`Start` in terms of the stored program: it succeeds exactly on an acceptable
program that is not running, and a refused call changes nothing.
-/

namespace PrismKit

namespace Machine

/-- `Start` succeeds iff no program runs and the stored one is acceptable;
otherwise the whole machine stays as it is. -/
theorem start_success_iff {machine : Machine} (reachable : Reachable machine)
    (rootAdditionalRepeats : LoopCount) (now : Nat) :
    ((machine.start rootAdditionalRepeats now).2 = .success ↔
        machine.state ≠ .active ∧ machine.Acceptable rootAdditionalRepeats) ∧
      ((machine.start rootAdditionalRepeats now).2 ≠ .success →
        (machine.start rootAdditionalRepeats now).1 = machine) := by
  have legal := legal_of_reachable reachable
  rcases start_cases legal.loadable rootAdditionalRepeats now with
    ⟨active, refused⟩ | ⟨idle, unacceptable, status, failure, refused⟩ |
      ⟨idle, acceptable, build, validated, success, -⟩
  · rw [refused]
    refine ⟨⟨?_, ?_⟩, fun _ => rfl⟩
    · intro success
      exact ControllerStatus.noConfusion success
    · intro admitted
      exact absurd active admitted.1
  · rw [refused]
    refine ⟨⟨?_, ?_⟩, fun _ => rfl⟩
    · intro success
      exact absurd success failure
    · intro admitted
      exact absurd admitted.2 unacceptable
  · refine ⟨⟨fun _ => ⟨idle, acceptable⟩, fun _ => success⟩, ?_⟩
    intro failed
    exact absurd success failed

/-- Two groups that call each other are refused. -/
theorem start_refuses_cycle :
    (((hosted
            [{ groupId := 1, kind := .runGroup 2 0 },
              { groupId := 2, kind := .runGroup 1 0 }]
            []).start 0 0).2 = .success ↔
        (hosted
            [{ groupId := 1, kind := .runGroup 2 0 },
              { groupId := 2, kind := .runGroup 1 0 }]
            []).state ≠ .active ∧
          (hosted
            [{ groupId := 1, kind := .runGroup 2 0 },
              { groupId := 2, kind := .runGroup 1 0 }]
            []).Acceptable 0) ∧
      ((hosted
            [{ groupId := 1, kind := .runGroup 2 0 },
              { groupId := 2, kind := .runGroup 1 0 }]
            []).start 0 0).2 = .invalidProgram :=
  ⟨(start_success_iff (reachable_hosted _ _) 0 0).1, by decide +kernel⟩

end Machine

end PrismKit
