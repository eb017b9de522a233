import Chaperone.Proofs.Supervisor.Timing
import Chaperone.Supervise.Basic

/-!
# When a run is reported as timed out

A run of a plan is reported as timed out if the wait for its programs gives up.  That all programs
have ended by the deadline does not rule this out: the last look may have been made long before,
since a pause is as long as the plan says, whatever is left of the time.
-/

namespace Chaperone

variable {κ ω : Type}

namespace Supervise

/-- A run is reported as timed out if the wait for its programs gives up, and not if it does not. -/
theorem timedOut_of_carryOut (host : Host ω) (fuel : Nat) (plan : Plan) (desk : Desk κ) (kept : κ)
    (w : ω) :
    let state := (launchAll host desk 0 plan.programs .new { kept } w).2
    let waited := state.1.wait host fuel (plan.pollingIntervalMs * 1000)
      (plan.maxWaitMs.map (· * 1000)) state.2.1 state.2.2
    let run := (carryOut host fuel plan desk kept w).1
    (waited.1 = some true → ∃ summary, run = some summary ∧ summary.timedOut = false) ∧
      ∀ summary, run = some summary → waited.1 = some (!summary.timedOut) := by
  simp only [carryOut]
  generalize launchAll host desk 0 plan.programs .new { kept } w = launched
  obtain ⟨failures, supervisor, record, w'⟩ := launched
  dsimp only
  generalize supervisor.wait host fuel _ _ record w' = waited
  obtain ⟨_ | _ | _, supervisor, record, w''⟩ := waited
  · exact ⟨nofun, nofun⟩
  · refine ⟨nofun, ?_⟩
    intro result hresult
    dsimp only at hresult
    split at hresult
    · generalize supervisor.wait host fuel _ none record _ = reaped at hresult
      obtain ⟨_ | verdict, _⟩ := reaped
      · cases hresult
      · obtain rfl := Option.some.inj hresult
        rfl
    · obtain rfl := Option.some.inj hresult
      rfl
  · refine ⟨fun _ => ⟨_, rfl, rfl⟩, ?_⟩
    rintro _ ⟨⟩
    rfl

/-- **When a run is reported as timed out.**  If no round of the wait lasts from before the end of
the last program until after the deadline, the wait lasts until all programs have ended, and the run
is not reported as timed out.  If it is reported, its last look has left programs that had not ended
when that look began; they may have ended since. -/
theorem timedOut_of_run (host : Host ω) (timed : host.Timed) (fuel : Nat) (plan : Plan)
    (desk : Desk κ) (kept : κ) (w : ω) :
    let interval := plan.pollingIntervalMs * 1000
    let maxWait := plan.maxWaitMs.map (· * 1000)
    let state := (launchAll host desk 0 plan.programs .new { kept } w).2
    let waited := state.1.wait host fuel interval maxWait state.2.1 state.2.2
    let run := (carryOut host fuel plan desk kept w).1
    (∀ time, (∀ entry ∈ state.1.entries, timed.EndsBy state.2.2 entry.child.pid time) →
      timed.Punctual interval maxWait time state → time - timed.clock state.2.2 < fuel →
        waited.1 = some true ∧ ∃ summary, run = some summary ∧ summary.timedOut = false) ∧
      ∀ summary, run = some summary → summary.timedOut = true →
        ∃ last, timed.Late interval maxWait state last waited.2 := by
  intro interval maxWait state waited run
  obtain ⟨hintime, htold⟩ := timedOut_of_carryOut host fuel plan desk kept w
  constructor
  · intro time hends hpunctual hfuel
    obtain ⟨result, hwait⟩ := timed.wait_of_ended hends hpunctual hfuel
    have hverdict : waited.1 = some true := congrArg Prod.fst hwait
    exact ⟨hverdict, hintime hverdict⟩
  · intro summary hrun htimedOut
    have hverdict : waited.1 = some (!summary.timedOut) := htold summary hrun
    rw [htimedOut] at hverdict
    exact timed.late_of_wait (Prod.ext hverdict rfl)

end Supervise

/-! ### A program that ends in time -/

/-- A machine with a clock whose programs run until a time. -/
def Host.ticking (ends : Nat) : Host Nat where
  read _ _ w := (.bytes [], w)
  write _ _ w := (.brokenPipe, w)
  close _ w := w
  reap _ w := (if ends ≤ w then .ended 0 else .running, w)
  await _ w := (.ok 0, max w ends)
  kill _ _ w := (.ok (), w)
  watch _ milliseconds w := (.ok (), w + milliseconds * 1000)
  sleep microseconds w := w + max microseconds 1
  now w := (w, w)
  start _ w := (.ok ⟨1, none, none, none⟩, w)
  view _ := ⟨fun _ => .executable, fun _ => true, .ok "/", []⟩
  readFile _ w := (.error (.os Errno.noEntry), w)
  wallClock w := w / 1000
  patience _ := 0
  patience_read h := by cases h
  patience_write h := by cases h
  length_read h := by
    cases h
    exact Nat.zero_le _
  count_write h := by cases h
  nodup_start h := by
    cases h
    exact List.nodup_nil

def Host.timedTicking (ends : Nat) : (Host.ticking ends).Timed where
  clock := id
  onward time := by
    constructor <;> intros <;> simp only [Host.ticking, id] at * <;> omega
  le_now _ := Nat.le_refl _
  now_le _ := Nat.le_refl _
  sleep _ _ := Nat.le_refl _

theorem Host.endsBy_timedTicking (ends w : Nat) (pid : Pid) :
    (Host.timedTicking ends).EndsBy w pid ends := by
  intro w' _ hlate
  have hended : ((Host.ticking ends).reap pid w').1 = .ended 0 := if_pos hlate
  rw [hended]
  rfl

namespace Supervise

def briefPlan (pollingIntervalMs : Nat) : Plan :=
  { pollingIntervalMs, maxWaitMs := some 600,
    programs := [{ name := "brief", command := "/bin/sleep", args := ["0.2"] }] }

/-- A look at the program every 250 milliseconds is punctual: the first round is over long before
the deadline, and the program has ended when the second one begins. -/
theorem punctual_briefPlan (desk : Desk Unit) :
    (Host.timedTicking 200000).Punctual 250000 (some 600000) 200000
      (launchAll (Host.ticking 200000) desk 0 (briefPlan 250).programs .new { kept := () }
        0).2 := by
  intro limit hlimit count last hlast hearly
  rw [hlimit] at hlast
  cases count with
  | zero =>
    obtain rfl := Sum.inl.inj hlast
    have hdeadline : (Supervisor.waitDeadline (Host.ticking 200000) (some 600000)
        (launchAll (Host.ticking 200000) desk 0 (briefPlan 250).programs .new { kept := () }
          0).2.2.2).1 = some 600000 := by cbv
    obtain rfl := Option.some.inj (hdeadline.symm.trans hlimit)
    cbv
  | succ count =>
    rw [iterate] at hlast
    split at hlast
    · next next hround =>
      have hnext : 250000 ≤ id next.2.2 := by
        rcases Supervisor.waitRound_next hround with hnext | hnext <;> rw [hnext] <;>
          exact Nat.le_add_left ..
      have hrounds := ((Host.timedTicking 200000).onward 250000).wait.rounds 250000 (some limit)
        count hnext
      rw [hlast] at hrounds
      have hlate : 250000 ≤ (Host.timedTicking 200000).clock last.2.2 := hrounds
      omega
    · cases hlast

/-- The end of a program after 200 milliseconds is seen in time if it is looked at every 250
milliseconds, and not if it is looked at every 1500 milliseconds. -/
theorem timedOut_of_briefPlan :
    let run (pollingIntervalMs : Nat) : Option Summary :=
      (carryOut (Host.ticking 200000) 200001 (briefPlan pollingIntervalMs)
        ⟨.json, fun _ _ _ => ()⟩ () 0).1
    (∃ summary, run 250 = some summary ∧ summary.timedOut = false) ∧
      run 1500 = some ⟨[("brief", .exited (.exited 0))], true⟩ := by
  intro run
  constructor
  · have hends (w : Nat) (pid : Pid) := Host.endsBy_timedTicking 200000 w pid
    have hintime := (timedOut_of_run (Host.ticking 200000) (Host.timedTicking 200000) 200001
      (briefPlan 250) ⟨.json, fun _ _ _ => ()⟩ () 0).1 200000
    exact (hintime (fun entry _ => hends _ entry.child.pid) (punctual_briefPlan _) (by omega)).2
  · dsimp only [run]
    cbv

end Supervise

end Chaperone
