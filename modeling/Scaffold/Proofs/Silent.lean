import Scaffold.Creation

/-!
# Scripts that ask nothing

A script that asks nothing ends with the same value and on the same disk, whoever would answer and
whatever they keep. All scripts that only touch the disk are of this kind, so their runs are
studied without an answerer.
-/

namespace Scaffold

namespace Script

variable {Query Answer α β σ : Type}

def lift : Script Empty Empty α → Script Query Answer α
  | done value => done value
  | call c next => call c fun reply => (next reply).lift
  | ask query _ => query.elim

@[simp]
theorem lift_perform (c : Call) :
    (perform c : Script Empty Empty c.Reply).lift = (perform c : Script Query Answer c.Reply) := rfl

theorem lift_bind (script : Script Empty Empty α) (next : α → Script Empty Empty β) :
    (script >>= next).lift = (script.lift >>= fun value => (next value).lift :
      Script Query Answer β) := by
  induction script with
  | done value => rfl
  | call c rest ih =>
      change Script.call c _ = Script.call c _
      congr 1
      funext reply
      exact ih reply
  | ask query _ => exact query.elim

theorem run_lift (answer : Query → σ → Answer × σ) (script : Script Empty Empty α) (disk : Disk)
    (state : σ) :
    script.lift.run answer disk state =
      ⟨(script.runSilent disk).1, (script.runSilent disk).2, state⟩ := by
  induction script generalizing disk with
  | done value => rfl
  | call c rest ih => exact ih (c.perform disk).1 (c.perform disk).2
  | ask query _ => exact query.elim

@[simp]
theorem runSilent_perform (c : Call) (disk : Disk) :
    (perform c).runSilent disk = c.perform disk := rfl

theorem runSilent_bind (script : Script Empty Empty α) (next : α → Script Empty Empty β)
    (disk : Disk) :
    (script >>= next).runSilent disk =
      (next (script.runSilent disk).1).runSilent (script.runSilent disk).2 := by
  change (script.bind next).runSilent disk = _
  simp only [runSilent, run_bind]

end Script

section Lift

variable {Query Answer : Type}

theorem Directory.lift_make (path : Path) :
    (Directory.make path : Script Empty Empty _).lift =
      (Directory.make path : Script Query Answer _) := by
  unfold Directory.make
  rw [Script.lift_bind, Script.lift_perform]
  congr 1
  funext reply
  split
  · rfl
  · rw [Script.lift_bind, Script.lift_perform]
    congr 1
    funext isDirectory
    cases isDirectory <;> rfl
  · rfl

theorem Directory.lift_makeChain (chain : List Path) :
    (Directory.makeChain chain : Script Empty Empty _).lift =
      (Directory.makeChain chain : Script Query Answer _) := by
  induction chain with
  | nil => rfl
  | cons path ancestors ih =>
      unfold Directory.makeChain
      rw [Script.lift_bind, Directory.lift_make]
      congr 1
      funext made
      split
      · rfl
      · rw [Script.lift_bind, ih]
        congr 1
        funext above
        split
        · rw [Script.lift_bind, Directory.lift_make]
          rfl
        · rfl
      · rfl

theorem Directory.lift_ensureParent (path : Path) :
    (Directory.ensureParent path : Script Empty Empty _).lift =
      (Directory.ensureParent path : Script Query Answer _) := by
  unfold Directory.ensureParent
  split
  · rfl
  · rw [Script.lift_bind, Directory.ensure, Directory.ensure, Directory.lift_makeChain]
    rfl

theorem Directory.lift_claim (path : Path) :
    (Directory.claim path : Script Empty Empty _).lift =
      (Directory.claim path : Script Query Answer _) := by
  unfold Directory.claim
  rw [Script.lift_bind, Directory.lift_ensureParent]
  congr 1
  funext ensured
  split
  · rfl
  · rw [Script.lift_bind, Directory.lift_make]
    rfl

theorem File.lift_write (path : Path) (content : ByteArray) :
    (File.write path content : Script Empty Empty _).lift =
      (File.write path content : Script Query Answer _) := by
  unfold File.write
  rw [Script.lift_bind, Directory.lift_ensureParent]
  congr 1
  funext ensured
  split
  · rfl
  · rw [Script.lift_bind, Script.lift_perform]
    rfl

theorem Blueprint.lift_write (blueprint : Blueprint) (directory : Path) :
    (blueprint.write directory : Script Empty Empty _).lift =
      (blueprint.write directory : Script Query Answer _) := by
  unfold Blueprint.write
  simp only [Script.lift_bind, File.lift_write]
  congr 1
  funext header
  split
  · rfl
  · rw [Script.lift_bind, File.lift_write]
    congr 1
    funext source
    split <;> rfl

end Lift

end Scaffold
