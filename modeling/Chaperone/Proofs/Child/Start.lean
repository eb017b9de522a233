import Chaperone.Launch.Start
import Chaperone.Proofs.Child.Output

/-!
# Children that were just started

Nothing has been read from a child that was just started, nothing has been seen of its end, and its
pipes are different ones.  So an account of its output starts empty (`Flow.spawn`).
-/

namespace Chaperone

variable {ω : Type} {executable : String} {args : List String} {options : LaunchOptions}
  {child : Child}

/-- The request to start a child says whether the child is to lead a group. -/
theorem request_of_spawn {host : Host ω} {w w' : ω}
    (h : spawn host executable args options w = (.ok child, w')) :
    ∃ request launched, host.start request w = (.ok launched, w') ∧
      request.newSession = options.detachProcessGroup ∧ child = {
        pid := launched.pid
        stdin := launched.stdin
        stdout := launched.stdout
        stderr := launched.stderr
        leadsGroup := options.detachProcessGroup } := by
  simp only [spawn] at h
  split at h
  · cases h
  · split at h
    · cases h
    · split at h
      · cases h
      · split at h
        · cases h
        · next launched w' hstart =>
          obtain ⟨hchild, rfl⟩ := Prod.mk.inj h
          exact ⟨_, launched, hstart, rfl, (Except.ok.inj hchild).symm⟩

theorem spawn_ok {host : Host ω} {w w' : ω}
    (h : spawn host executable args options w = (.ok child, w')) :
    ∃ request launched, host.start request w = (.ok launched, w') ∧
      child = {
        pid := launched.pid
        stdin := launched.stdin
        stdout := launched.stdout
        stderr := launched.stderr
        leadsGroup := options.detachProcessGroup } := by
  obtain ⟨request, launched, hstart, -, hchild⟩ := request_of_spawn h
  exact ⟨request, launched, hstart, hchild⟩

theorem status_of_spawn {host : Host ω} {w w' : ω}
    (h : spawn host executable args options w = (.ok child, w')) : child.status = none := by
  obtain ⟨_, _, -, rfl⟩ := spawn_ok h
  rfl

theorem residue_of_spawn {host : Host ω} {w w' : ω}
    (h : spawn host executable args options w = (.ok child, w')) (stream : OutputStream) :
    child.residue stream = [] := by
  obtain ⟨_, _, -, rfl⟩ := spawn_ok h
  cases stream <;> rfl

theorem apart_of_spawn {host : Host ω} {w w' : ω}
    (h : spawn host executable args options w = (.ok child, w')) : Apart child.pipe := by
  obtain ⟨_, launched, hstart, rfl⟩ := spawn_ok h
  have hnodup := host.nodup_start hstart
  intro d hout herr
  simp only [Child.pipe] at hout herr
  simp only [Launched.pipes, hout, herr] at hnodup
  cases hin : launched.stdin <;> simp [hin] at hnodup

/-- Starting a child asks nothing. -/
theorem log_of_spawn {host : Host ω} {w w' : ω × Log} {result : Except SpawnError Child}
    (h : spawn host.logged executable args options w = (result, w')) :
    w'.2 = w.2 ∨ ∃ request answer, w'.2 = w.2 ++ [.start request answer] := by
  simp only [spawn] at h
  split at h
  · obtain ⟨-, rfl⟩ := Prod.mk.inj h
    exact Or.inl rfl
  · split at h
    · obtain ⟨-, rfl⟩ := Prod.mk.inj h
      exact Or.inl rfl
    · split at h
      · obtain ⟨-, rfl⟩ := Prod.mk.inj h
        exact Or.inl rfl
      · split at h
        all_goals
          next hstart =>
          obtain ⟨-, rfl⟩ := Prod.mk.inj hstart
          obtain ⟨-, rfl⟩ := Prod.mk.inj h
          exact Or.inr ⟨_, _, rfl⟩

theorem asked_of_spawn {host : Host ω} {w w' : ω × Log} {result : Except SpawnError Child}
    (h : spawn host.logged executable args options w = (result, w')) : asked w'.2 = asked w.2 := by
  rcases log_of_spawn h with hlog | ⟨request, answer, hlog⟩
  · rw [hlog]
  · rw [hlog, asked_append]
    exact List.append_nil _

/-- Nothing has been read from a child that was just started. -/
theorem Flow.spawn {host : Host ω} {w : ω} {w' : ω × Log}
    (h : Chaperone.spawn host.logged executable args options (w, []) = (.ok child, w')) :
    Flow child.pipe (fun _ => []) child w'.2 := by
  refine Flow.start child (residue_of_spawn h) ?_
  intro pipe
  rcases log_of_spawn h with hlog | ⟨request, answer, hlog⟩ <;> rw [hlog] <;> rfl

end Chaperone
