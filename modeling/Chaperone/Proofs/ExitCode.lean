import Chaperone.CommandLine.Execute
import Chaperone.Proofs.Child.Status
import Chaperone.Proofs.Undelivered

/-!
# The exit code that a program lends to the whole

The end of a child is reported as a word.  The word is read as a status, the status is put into its
integer form, and of this the exit code is made.  What comes of it in the end is what a shell makes
of the word: the code of the child (`exitCode_of_exit`), or 128 and the signal
(`exitCode_of_signal`).  No difference that is taken on the way leaves the range of its numbers, and
the exit code is a byte.

* `exitCode_of_word`: all this for every word, and that a run for whose program the word is reported
  ends with the exit code.
-/

namespace Chaperone

open CommandLine ExitStatus

variable {ω : Type}

/-! ### The exit code of a status -/

def ExitStatus.exitCode (status : ExitStatus) : Int := (shellExitCode status.code).toInt

/-- No difference that is taken for the exit code of a status leaves the range of its numbers. -/
structure ExitStatus.Exact (status : ExitStatus) : Prop where
  negated : ∀ signal, status = .signaled signal → (-signal).toInt = -signal.toInt
  shifted : status.code < 0 → (128 - status.code).toInt = 128 - status.code.toInt

theorem exitCode_of_nonneg (status : ExitStatus) (h : 0 ≤ status.code.toInt) :
    status.exitCode = status.code.toInt := by
  have hsign : ¬status.code < 0 := fun hneg => Int.not_lt.mpr h (Int32.lt_iff_toInt_lt.mp hneg)
  rw [exitCode, shellExitCode, if_neg hsign]

theorem toInt_sub_of_neg {status : Int32} (h : status < 0) (hmin : -128 ≤ status.toInt) :
    (128 - status).toInt = 128 - status.toInt := by
  have hneg : status.toInt < 0 := Int32.lt_iff_toInt_lt.mp h
  have h128 : (128 : Int32).toInt = 128 := by decide
  rw [Int32.toInt_sub, h128]
  exact Int.bmod_eq_of_le (by omega) (by omega)

theorem exitCode_of_neg {status : ExitStatus} (h : status.code.toInt < 0)
    (hmin : -128 ≤ status.code.toInt) : status.exitCode = 128 - status.code.toInt := by
  have hsign : status.code < 0 := Int32.lt_iff_toInt_lt.mpr h
  rw [exitCode, shellExitCode, if_pos hsign, toInt_sub_of_neg hsign hmin]

/-! ### The exit code of a word -/

theorem cases_ofWaitWord (word : UInt32) :
    (∃ code, ofWaitWord word = .exited code ∧ 0 ≤ code.toInt ∧ code.toInt ≤ 255) ∨
      (∃ signal, ofWaitWord word = .signaled signal ∧ 1 ≤ signal.toInt ∧ signal.toInt ≤ 126) ∨
      ofWaitWord word = .lost := by
  by_cases hend : EndWord word
  · exact (Recordable.ended hend).cases
  · have hones : word &&& 0x7F = 0x7F := Decidable.not_not.mp hend
    have hne : word &&& 0x7F ≠ 0 := by
      rw [hones]
      decide
    exact Or.inr (Or.inr ((if_neg hne).trans (if_pos hones)))

theorem exact_ofWaitWord (word : UInt32) : (ofWaitWord word).Exact := by
  obtain ⟨code, hstatus, hmin, -⟩ | ⟨signal, hstatus, hmin, hmax⟩ | hstatus := cases_ofWaitWord word
  · rw [hstatus]
    refine ⟨nofun, fun h => ?_⟩
    exact absurd hmin (Int.not_le.mpr (Int32.lt_iff_toInt_lt.mp h))
  · have hcode := toInt_code_signaled hmin
    rw [hstatus]
    refine ⟨?_, fun h => toInt_sub_of_neg h (by omega)⟩
    rintro _ ⟨⟩
    exact hcode
  · rw [hstatus]
    exact ⟨nofun, fun h => toInt_sub_of_neg h (by decide)⟩

theorem exitCode_mem_byte (word : UInt32) :
    0 ≤ (ofWaitWord word).exitCode ∧ (ofWaitWord word).exitCode ≤ 255 := by
  obtain ⟨code, hstatus, hmin, hmax⟩ | ⟨signal, hstatus, hmin, hmax⟩ | hstatus :=
    cases_ofWaitWord word
  · rw [hstatus, exitCode_of_nonneg (.exited code) hmin]
    exact ⟨hmin, hmax⟩
  · have hcode := toInt_code_signaled hmin
    rw [hstatus, exitCode_of_neg (by omega) (by omega), hcode]
    omega
  · rw [hstatus]
    decide

theorem exitCode_of_exit {word : UInt32} (h : word.toNat % 128 = 0) :
    ∃ code, ofWaitWord word = .exited code ∧ code.toInt = word.toNat / 256 % 256 ∧
      (ofWaitWord word).exitCode = code.toInt := by
  obtain ⟨code, hstatus, hcode⟩ := ofWaitWord_of_exit h
  refine ⟨code, hstatus, hcode, ?_⟩
  rw [hstatus]
  exact exitCode_of_nonneg (.exited code) (by rw [toInt_code_exited]; omega)

theorem exitCode_of_signal {word : UInt32} (hne : word.toNat % 128 ≠ 0)
    (hend : word.toNat % 128 ≠ 127) :
    ∃ signal, ofWaitWord word = .signaled signal ∧ signal.toInt = (word.toNat % 128 : Nat) ∧
      (ofWaitWord word).exitCode = 128 + signal.toInt := by
  obtain ⟨signal, hstatus, hsignal⟩ := ofWaitWord_of_signal hne hend
  have hmin : 1 ≤ signal.toInt := by omega
  have hcode := toInt_code_signaled hmin
  refine ⟨signal, hstatus, hsignal, ?_⟩
  rw [hstatus, exitCode_of_neg (by omega) (by omega), hcode, Int.sub_neg]

/-! ### Runs -/

/-- A run for whose program an end is reported gives the integer form of the status. -/
theorem runProgram_of_reported {host : Host ω} {fuel : Nat} {executable : String}
    {args : List String} {input : String} {options : LaunchOptions} {w : ω} {w' : ω × Log}
    {result : Option (Except Error RunResult)}
    (hrun : runProgram host.logged fuel executable args input options (w, []) = (result, w'))
    {status : ExitStatus} (h : status ∈ reported w'.2) :
    ∃ stdout stderr, result = some (.ok ⟨status.code, stdout, stderr⟩) := by
  generalize hspawn : spawn host.logged executable args options (w, []) = spawned
  obtain ⟨cause | child, w₁⟩ := spawned
  · -- What could not be started was never asked for its end.
    have hnone := reported_of_asked (asked_of_spawn hspawn)
    simp only [runProgram, hspawn] at hrun
    obtain ⟨-, rfl⟩ := Prod.mk.inj hrun
    rw [hnone] at h
    cases h
  · have hends := runProgram_spec host hspawn hrun
    by_cases hresult : ∃ given, result = some (.ok given)
    · obtain ⟨given, rfl⟩ := hresult
      obtain ⟨seen, hreported, rfl⟩ := hends
      rw [hreported, List.mem_singleton] at h
      subst h
      exact ⟨_, _, rfl⟩
    · rw [(condemns_runProgram hspawn hrun).2 (not_exists.mp hresult)] at h
      cases h

theorem mem_reported {log : Log} {pid : Pid} {word : UInt32} (h : (pid, .ended word) ∈ asked log) :
    ofWaitWord word ∈ reported log :=
  List.mem_filterMap.mpr ⟨_, h, rfl⟩

theorem execute_of_reported {host : Host ω} {fuel : Nat} {request : RunRequest} {w : ω}
    {w' : ω × Log} {ending : Ending}
    (h : (Invocation.run request).execute host.logged fuel (w, []) = (some ending, w'))
    {status : ExitStatus} (hstatus : status ∈ reported w'.2) :
    ∃ stdout stderr, ending = .ofResult ⟨status.code, stdout, stderr⟩ := by
  simp only [Invocation.execute, runOnce, runCommand] at h
  split at h
  · obtain ⟨-, rfl⟩ := Prod.mk.inj h
    cases hstatus
  · split at h
    all_goals
      generalize hrun : runProgram host.logged fuel _ _ request.input request.options (w, []) = r
        at h
      obtain ⟨result, w₁⟩ := r
      obtain ⟨hending, rfl⟩ := Prod.mk.inj h
      obtain ⟨stdout, stderr, rfl⟩ := runProgram_of_reported hrun hstatus
      exact ⟨stdout, stderr, (Option.some.inj hending).symm⟩

/-- **The exit code of every word.**  When the low seven bits are zero, the status is an exit with
the next byte as its code, and this is the exit code.  When they are a signal from 1 to 126, the
status is that signal, and the exit code is 128 and the signal.  The other bits make no difference.
The exit code is always a byte, so that ending with it does not cut it off, and no difference that
is taken on the way leaves the range of its numbers.  A run for whose program the word is reported
ends with it. -/
theorem exitCode_of_word (word : UInt32) :
    (word.toNat % 128 = 0 → ∃ code, ofWaitWord word = .exited code ∧
        code.toInt = word.toNat / 256 % 256 ∧ (ofWaitWord word).exitCode = code.toInt) ∧
      (∀ n : Nat, 1 ≤ n → n ≤ 126 → word.toNat % 128 = n → ∃ signal,
        ofWaitWord word = .signaled signal ∧ signal.toInt = n ∧
          (ofWaitWord word).exitCode = 128 + n) ∧
      (0 ≤ (ofWaitWord word).exitCode ∧ (ofWaitWord word).exitCode ≤ 255) ∧
      (ofWaitWord word).Exact ∧
      ∀ (ω : Type) (host : Host ω) (fuel : Nat) (request : RunRequest) (w : ω) (ending : Ending)
        (w' : ω × Log) (pid : Pid),
        (Invocation.run request).execute host.logged fuel (w, []) = (some ending, w') →
          (pid, .ended word) ∈ asked w'.2 → ending.code = (ofWaitWord word).exitCode := by
  refine ⟨exitCode_of_exit, ?_, exitCode_mem_byte word, exact_ofWaitWord word, ?_⟩
  · rintro n hmin hmax rfl
    have hne : word.toNat % 128 ≠ 0 := by omega
    have hend : word.toNat % 128 ≠ 127 := by omega
    obtain ⟨signal, hstatus, hsignal, hcode⟩ := exitCode_of_signal hne hend
    exact ⟨signal, hstatus, hsignal, hcode.trans (by rw [hsignal])⟩
  · intro ω host fuel request w ending w' pid hexecute hasked
    obtain ⟨stdout, stderr, rfl⟩ := execute_of_reported hexecute (mem_reported hasked)
    obtain ⟨hmin, hmax⟩ := exitCode_mem_byte word
    exact Int.emod_eq_of_lt hmin (Int.lt_add_one_of_le hmax)

/-- A machine on which every child has been killed and has left a core behind. -/
def Host.killed : Host (List UInt8) :=
  { Host.answering (.ended 0x89) with await := fun _ w => (.ok 0x89, w) }

/-- A program that was killed ends the whole with 137, as it would end a shell. -/
theorem exitCode_of_killed :
    let run := (Invocation.run { command := "/bin/sleep" }).execute Host.killed.logged 1 ([], [])
    (run.1.map (·.code), asked run.2.2) = (some 137, [(1, .ended 0x89)]) ∧
      ∃ signal, ofWaitWord 0x89 = .signaled signal ∧ signal.toInt = 9 ∧
        (ofWaitWord 0x89).exitCode = 137 := by
  intro run
  have hasked : asked run.2.2 = [(1, .ended 0x89)] := by cbv
  obtain ⟨-, hsignal, -, -, hrun⟩ := exitCode_of_word 0x89
  obtain ⟨signal, hstatus, hnumber, hcode⟩ := hsignal 9 (by decide) (by decide) rfl
  have hended : run.1.isSome = true := by cbv
  obtain ⟨ending, hending⟩ := Option.isSome_iff_exists.mp hended
  have hmem : (1, ReapResult.ended 0x89) ∈ asked run.2.2 := by
    rw [hasked]
    exact List.mem_singleton_self _
  have h137 := (hrun _ Host.killed 1 _ [] ending run.2 1 (Prod.ext hending rfl) hmem).trans hcode
  refine ⟨Prod.ext ?_ hasked, signal, hstatus, hnumber, hcode⟩
  rw [hending, Option.map_some, h137]
  rfl

end Chaperone
