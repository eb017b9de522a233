import Chaperone.Proofs.Log
import Chaperone.Supervisor.Script

/-!
# What writing to a child leaves alone

A child is written to, its standard input is closed, and it is sent signals: by a flush of queued
input, and by callbacks through a `Script`.  None of this touches the output of the child, what was
seen of its end, or its number (`withoutInput_run`), and none of it reads or asks anything
(`tells_run`).
-/

namespace Chaperone

variable {ω : Type}

def Child.withoutInput (child : Child) : Child :=
  { child with stdin := none, pendingInput := [], closeWhenFlushed := false }

/-! ### Children that differ in their input -/

namespace Child

variable {c c' : Child}

theorem pid_of_withoutInput (h : c'.withoutInput = c.withoutInput) : c'.pid = c.pid :=
  congrArg (·.pid) h

theorem status_of_withoutInput (h : c'.withoutInput = c.withoutInput) : c'.status = c.status :=
  congrArg (·.status) h

theorem target_of_withoutInput (h : c'.withoutInput = c.withoutInput) : c'.target = c.target := by
  have hgroup : c'.leadsGroup = c.leadsGroup := congrArg (·.leadsGroup) h
  rw [target, target, hgroup, pid_of_withoutInput h]

theorem pipe_of_withoutInput (h : c'.withoutInput = c.withoutInput) (stream : OutputStream) :
    c'.pipe stream = c.pipe stream := by
  cases stream with
  | stdout => exact congrArg (·.stdout) h
  | stderr => exact congrArg (·.stderr) h

theorem residue_of_withoutInput (h : c'.withoutInput = c.withoutInput) (stream : OutputStream) :
    c'.residue stream = c.residue stream := by
  cases stream with
  | stdout => exact congrArg (·.stdoutResidue) h
  | stderr => exact congrArg (·.stderrResidue) h

/-! ### The child -/

@[simp] theorem withoutInput_closeStdin (host : Host ω) (child : Child) (w : ω) :
    (child.closeStdin host w).1.withoutInput = child.withoutInput := rfl

@[simp] theorem withoutInput_flushStdin (host : Host ω) (child : Child) (w : ω) :
    (child.flushStdin host w).2.1.withoutInput = child.withoutInput := by
  fun_induction flushStdin host child w with
  | case1 child w _ _ child' w' hc =>
    exact (congrArg (·.1.withoutInput) hc).symm
  | case5 child w b rest _ d _ count w' _ ih => rw [ih]; rfl
  | case7 child w b rest _ d _ w' _ ih => exact ih
  | _ => rfl

theorem withoutInput_write (host : Host ω) (data : List UInt8) (close : Bool) (child : Child)
    (w : ω) : (child.write host data close w).2.1.withoutInput = child.withoutInput := by
  simp only [write]
  split
  · rfl
  · rw [withoutInput_flushStdin]
    rfl

end Child

theorem Script.withoutInput_run {α : Type} (host : Host ω) (script : Script α) (child : Child)
    (w : ω) : (script.run host child w).2.1.withoutInput = child.withoutInput := by
  induction script generalizing child w with
  | done value => rfl
  | write text close next ih =>
    rw [Script.run, ih]
    exact Child.withoutInput_write ..
  | closeStdin next ih =>
    rw [Script.run, ih]
    rfl
  | signal s next ih =>
    rw [Script.run, ih]

/-! ### The calls -/

namespace Child

variable (host : Host ω) (child : Child) (w : ω × Log)

theorem tells_closeStdin : Only Call.Tells w (child.closeStdin host.logged w).2 := by
  simp only [closeStdin]
  cases child.stdin with
  | none => exact .refl _ _
  | some d => exact .one (.close d) trivial rfl

theorem empties_closeStdin : Only Call.Empties w (child.closeStdin host.logged w).2 := by
  simp only [closeStdin]
  cases child.stdin with
  | none => exact .refl _ _
  | some d => exact .one (.close d) trivial rfl

theorem tells_failStdin (cause : WriteError) :
    Only Call.Tells w (child.failStdin host.logged cause w).2.2 := tells_closeStdin host child w

theorem tells_hostWrite {d : Descriptor} {bytes : List UInt8} {result : WriteResult}
    {w w' : ω × Log} (h : host.logged.write d bytes w = (result, w')) : Only Call.Tells w w' := by
  obtain ⟨rfl, rfl⟩ := Prod.mk.inj h
  exact .one (.write d bytes _) trivial rfl

theorem tells_flushStdin : Only Call.Tells w (child.flushStdin host.logged w).2.2 := by
  fun_induction flushStdin host.logged child w with
  | case1 child w _ _ child' w' hc =>
    have := tells_closeStdin host child w
    rwa [hc] at this
  | case2 | case3 => exact .refl _ _
  | case4 child w b rest _ d _ w' hw | case8 child w b rest _ d _ w' hw
  | case9 child w b rest _ d _ cause w' hw =>
    exact (tells_hostWrite host hw).trans (tells_failStdin host child w' _)
  | case5 child w b rest _ d _ count w' hw ih => exact (tells_hostWrite host hw).trans ih
  | case6 child w b rest _ d _ w' hw => exact tells_hostWrite host hw
  | case7 child w b rest _ d _ w' hw ih => exact (tells_hostWrite host hw).trans ih

theorem tells_write (data : List UInt8) (close : Bool) :
    Only Call.Tells w (child.write host.logged data close w).2.2 := by
  simp only [write]
  split
  · exact .refl _ _
  · exact tells_flushStdin host _ w

/-- A signal is one call, unless the exit has been seen. -/
theorem signal_cases (signal : Signal) :
    child.exited = true ∧ child.signal host.logged signal w = (.ok (), w) ∨
      child.exited = false ∧ ∃ result, (child.signal host.logged signal w).2.2 =
        w.2 ++ [.kill child.target signal result] := by
  cases hexited : child.exited with
  | true =>
    refine Or.inl ⟨rfl, ?_⟩
    rw [Child.signal, if_pos hexited]
  | false =>
    refine Or.inr ⟨rfl, (host.kill child.target signal w.1).1, ?_⟩
    rw [Child.signal, if_neg (by simp [hexited])]
    split
    · next h => exact congrArg (·.2.2) h.symm
    · next h => split <;> exact congrArg (·.2.2) h.symm

theorem tells_signal (signal : Signal) :
    Only Call.Tells w (child.signal host.logged signal w).2 := by
  have hkill : Only Call.Tells w (host.logged.kill child.target signal w).2 :=
    .one (.kill child.target signal _) trivial rfl
  simp only [Child.signal]
  split
  · exact .refl _ _
  · split
    · next h => rwa [h] at hkill
    · next h =>
      rw [h] at hkill
      split <;> exact hkill

end Child

theorem Script.tells_run {α : Type} (host : Host ω) (script : Script α) (child : Child)
    (w : ω × Log) : Only Call.Tells w (script.run host.logged child w).2.2 := by
  induction script generalizing child w with
  | done value => exact .refl _ _
  | write text close next ih => exact (Child.tells_write host child w _ _).trans (ih _ _ _)
  | closeStdin next ih => exact (Child.tells_closeStdin host child w).trans (ih _ _)
  | signal s next ih => exact (Child.tells_signal host child w s).trans (ih _ _ _)

end Chaperone
