import Chaperone.Proofs.Child.Dealings
import Chaperone.Proofs.Child.Rest
import Chaperone.Proofs.Child.Start
import Chaperone.Proofs.Run

/-!
# What the integer form of a status tells

The status that is recorded for a child is read off the word that the system reports for a process
that has ended, or it is lost.  So there are three kinds (`Recordable.cases`): a normal exit with a
code from 0 to 255, a signal from 1 to 126, and the lost one.

The integer form of the first is not negative, and that of the second is.  The lost status has the
integer form of signal 1.  This is all that the integer form confuses (`Recordable.code_eq_iff`),
whatever was done with the children (`recordable_deal`, `recordable_runProgram`).
-/

namespace Chaperone

variable {ω ω' : Type}

namespace ExitStatus

/-- A word that is reported for a process that has ended, and not for one that was stopped. -/
def EndWord (word : UInt32) : Prop := word &&& 0x7F ≠ 0x7F

instance : DecidablePred EndWord := fun word => inferInstanceAs (Decidable (word &&& 0x7F ≠ 0x7F))

inductive Recordable : ExitStatus → Prop
  | ended {word : UInt32} (h : EndWord word) : Recordable (.ofWaitWord word)
  | lost : Recordable .lost

/-! ### The two numbers in a word -/

theorem toInt_toInt32 {u : UInt32} (h : u.toNat < 2147483648) : u.toInt32.toInt = u.toNat := by
  rw [← Int32.toInt_toBitVec, UInt32.toBitVec_toInt32]
  exact BitVec.toInt_eq_toNat_of_lt (by rw [UInt32.toNat_toBitVec]; omega)

theorem toNat_signalBits (word : UInt32) : (word &&& 0x7F).toNat = word.toNat % 128 := by
  rw [UInt32.toNat_and]
  exact Nat.and_two_pow_sub_one_eq_mod word.toNat 7

theorem toNat_codeBits (word : UInt32) :
    ((word >>> 8) &&& 0xFF).toNat = (word >>> 8).toNat % 256 := by
  rw [UInt32.toNat_and]
  exact Nat.and_two_pow_sub_one_eq_mod _ 8

theorem ofWaitWord_of_exit {word : UInt32} (h : word.toNat % 128 = 0) :
    ∃ code, ofWaitWord word = .exited code ∧ code.toInt = word.toNat / 256 % 256 := by
  have hzero : word &&& 0x7F = 0 := UInt32.toNat_inj.mp ((toNat_signalBits word).trans h)
  have hcode := toNat_codeBits word
  have hshift : (word >>> 8).toNat = word.toNat / 256 := by
    rw [UInt32.toNat_shiftRight]
    exact Nat.shiftRight_eq_div_pow word.toNat 8
  refine ⟨_, if_pos hzero, ?_⟩
  rw [toInt_toInt32 (by omega), hcode, hshift]
  rfl

theorem ofWaitWord_of_signal {word : UInt32} (hne : word.toNat % 128 ≠ 0)
    (hend : word.toNat % 128 ≠ 127) :
    ∃ signal, ofWaitWord word = .signaled signal ∧ signal.toInt = (word.toNat % 128 : Nat) := by
  have hlow := toNat_signalBits word
  have hzero : word &&& 0x7F ≠ 0 := fun h => hne (hlow.symm.trans (congrArg UInt32.toNat h))
  have hones : word &&& 0x7F ≠ 0x7F := fun h => hend (hlow.symm.trans (congrArg UInt32.toNat h))
  refine ⟨_, (if_neg hzero).trans (if_neg hones), ?_⟩
  rw [toInt_toInt32 (by omega), hlow]

theorem endWord_iff {word : UInt32} : EndWord word ↔ word.toNat % 128 ≠ 127 := by
  rw [← toNat_signalBits]
  exact not_congr UInt32.toNat_inj.symm

/-- The three kinds of status. -/
theorem Recordable.cases {status : ExitStatus} (h : status.Recordable) :
    (∃ code, status = .exited code ∧ 0 ≤ code.toInt ∧ code.toInt ≤ 255) ∨
      (∃ signal, status = .signaled signal ∧ 1 ≤ signal.toInt ∧ signal.toInt ≤ 126) ∨
      status = .lost := by
  cases h with
  | lost => exact Or.inr (Or.inr rfl)
  | @ended word hword =>
    rw [endWord_iff] at hword
    by_cases hzero : word.toNat % 128 = 0
    · obtain ⟨code, hstatus, hcode⟩ := ofWaitWord_of_exit hzero
      exact Or.inl ⟨code, hstatus, by omega⟩
    · obtain ⟨signal, hstatus, hsignal⟩ := ofWaitWord_of_signal hzero hword
      exact Or.inr (Or.inl ⟨signal, hstatus, by omega⟩)

/-! ### The integer form -/

theorem toInt_code_exited (code : Int32) : (ExitStatus.exited code).code.toInt = code.toInt := rfl

theorem toInt_code_signaled {signal : Int32} (h : 1 ≤ signal.toInt) :
    (ExitStatus.signaled signal).code.toInt = -signal.toInt := by
  have hmax := signal.toInt_lt
  rw [code, Int32.toInt_neg]
  exact Int.bmod_eq_of_le (by omega) (by omega)

theorem toInt_code_lost : lost.code.toInt = -1 := by decide

def Confused (a b : ExitStatus) : Prop :=
  a = .lost ∧ b = .signaled 1 ∨ a = .signaled 1 ∧ b = .lost

theorem Confused.code_eq {a b : ExitStatus} (h : Confused a b) : a.code = b.code := by
  rcases h with ⟨rfl, rfl⟩ | ⟨rfl, rfl⟩ <;> decide

theorem eq_signaled_one {signal : Int32} (h : signal.toInt = 1) :
    ExitStatus.signaled signal = .signaled 1 :=
  congrArg ExitStatus.signaled (Int32.toInt_inj.mp h)

/-- Of two statuses the integer forms are the same if the statuses are, and else only if one is
lost and the other is signal 1. -/
theorem Recordable.code_eq_iff {a b : ExitStatus} (ha : a.Recordable) (hb : b.Recordable) :
    a.code = b.code ↔ a = b ∨ Confused a b := by
  refine ⟨?_, ?_⟩
  · intro h
    have hcode : a.code.toInt = b.code.toInt := congrArg Int32.toInt h
    obtain ⟨c, rfl, hc, -⟩ | ⟨s, rfl, hs, -⟩ | rfl := ha.cases <;>
      obtain ⟨c', rfl, hc', -⟩ | ⟨s', rfl, hs', -⟩ | rfl := hb.cases
    · exact Or.inl (congrArg ExitStatus.exited h)
    · rw [toInt_code_exited, toInt_code_signaled hs'] at hcode
      omega
    · rw [toInt_code_exited, toInt_code_lost] at hcode
      omega
    · rw [toInt_code_exited, toInt_code_signaled hs] at hcode
      omega
    · rw [toInt_code_signaled hs, toInt_code_signaled hs'] at hcode
      exact Or.inl (congrArg ExitStatus.signaled (Int32.toInt_inj.mp (by omega)))
    · rw [toInt_code_signaled hs, toInt_code_lost] at hcode
      exact Or.inr (Or.inr ⟨eq_signaled_one (by omega), rfl⟩)
    · rw [toInt_code_exited, toInt_code_lost] at hcode
      omega
    · rw [toInt_code_signaled hs', toInt_code_lost] at hcode
      exact Or.inr (Or.inl ⟨rfl, eq_signaled_one (by omega)⟩)
    · exact Or.inl rfl
  · rintro (rfl | h)
    · rfl
    · exact h.code_eq

/-- The integer form tells whether a process succeeded. -/
theorem Recordable.success_eq {status : ExitStatus} (h : status.Recordable)
    (stdout stderr : String) :
    (RunResult.mk status.code stdout stderr).success = status.success := by
  obtain ⟨c, rfl, -⟩ | ⟨s, rfl, hs, -⟩ | rfl := h.cases
  · rfl
  · have hcode := toInt_code_signaled hs
    have hne : (ExitStatus.signaled s).code ≠ 0 := by
      intro hzero
      rw [hzero] at hcode
      have : (0 : Int32).toInt = 0 := by decide
      omega
    exact beq_false_of_ne hne
  · rfl

end ExitStatus

open ExitStatus (Recordable)

/-! ### What is recorded -/

/-- A machine that reports the end of children that have ended only. -/
structure Host.ReportsEnds (host : Host ω) : Prop where
  reap : ∀ {pid w word w'}, host.reap pid w = (.ended word, w') → ExitStatus.EndWord word
  await : ∀ {pid w word w'}, host.await pid w = (.ok word, w') → ExitStatus.EndWord word

theorem Host.ReportsEnds.logged {host : Host ω} (h : host.ReportsEnds) :
    host.logged.ReportsEnds where
  reap := by
    intro pid w word w' hreap
    obtain ⟨hresult, -⟩ := Prod.mk.inj hreap
    exact h.reap (Prod.ext hresult rfl)
  await := by
    intro pid w word w' hawait
    obtain ⟨hresult, -⟩ := Prod.mk.inj hawait
    exact h.await (Prod.ext hresult rfl)

namespace Host.ReportsEnds

variable {host : Host ω} {pid : Pid} {w : ω} {status : ExitStatus}

theorem recordable_reap (h : host.ReportsEnds) (hr : (host.reap pid w).1.status? = some status) :
    status.Recordable := by
  cases hanswer : (host.reap pid w).1 with
  | ended word =>
    rw [hanswer] at hr
    cases hr
    exact .ended (h.reap (Prod.ext hanswer rfl))
  | running =>
    rw [hanswer] at hr
    cases hr
  | failed errno =>
    simp only [hanswer, ReapResult.status?] at hr
    split at hr <;> cases hr
    exact .lost

theorem recordable_await (h : host.ReportsEnds)
    (hr : (ReapResult.ofAwait (host.await pid w).1).status? = some status) :
    status.Recordable := by
  cases hanswer : (host.await pid w).1 with
  | ok word =>
    rw [hanswer] at hr
    cases hr
    exact .ended (h.await (Prod.ext hanswer rfl))
  | error errno =>
    simp only [hanswer, ReapResult.ofAwait, ReapResult.status?] at hr
    split at hr <;> cases hr
    exact .lost

end Host.ReportsEnds

namespace Child

def Known (child : Child) : Prop := ∀ status, child.status = some status → status.Recordable

theorem known_of_none {child : Child} (h : child.status = none) : child.Known := by
  intro status hstatus
  rw [h] at hstatus
  cases hstatus

theorem Known.of_status {child child' : Child} (h : child.Known)
    (hstatus : child'.status = child.status) : child'.Known := by
  rw [Known, hstatus]
  exact h

theorem known_recordExit {status : ExitStatus} (h : status.Recordable) (host : Host ω)
    (child : Child) (w : ω) : (child.recordExit host status w).1.Known := by
  intro other hother
  rw [(child.recordExit_child host w status).1] at hother
  cases hother
  exact h

variable {host : Host ω} {child : Child}

theorem Known.tryWait (h : child.Known) (hends : host.ReportsEnds) (w : ω) :
    (child.tryWait host w).2.1.Known ∧
      ∀ status, (child.tryWait host w).1 = .ok (some status) → status.Recordable := by
  obtain ⟨seen, hseen, hlook⟩ | ⟨seen, -, hanswer, hlook⟩ | ⟨-, hanswer, hlook⟩ :=
    child.tryWait_cases host w
  · rw [hlook]
    refine ⟨h, ?_⟩
    rintro status ⟨⟩
    exact h seen hseen
  · have hrecordable := hends.recordable_reap hanswer
    rw [hlook]
    refine ⟨known_recordExit hrecordable host child _, ?_⟩
    rintro status ⟨⟩
    exact hrecordable
  · rw [hlook]
    refine ⟨h, ?_⟩
    intro status hstatus
    cases hsilent : (host.reap child.pid w).1 <;>
      simp [hsilent, ReapResult.silence] at hstatus

theorem Known.wait (h : child.Known) (hends : host.ReportsEnds) (w : ω) :
    (child.wait host w).2.1.Known ∧
      ∀ status, (child.wait host w).1 = .ok status → status.Recordable := by
  obtain ⟨seen, hseen, hwait⟩ | ⟨seen, -, hanswer, hwait⟩ | ⟨-, -, cause, hwait⟩ :=
    child.wait_cases host w
  · rw [hwait]
    refine ⟨h, ?_⟩
    rintro status ⟨⟩
    exact h seen hseen
  · have hrecordable := hends.recordable_await hanswer
    rw [hwait]
    refine ⟨known_recordExit hrecordable host child _, ?_⟩
    rintro status ⟨⟩
    exact hrecordable
  · rw [hwait]
    refine ⟨h, ?_⟩
    rintro status ⟨⟩

theorem Known.perform (h : child.Known) (hends : host.ReportsEnds) (w : ω × Log)
    (operation : Operation ω) : (child.perform host w operation).2.1.Known := by
  cases operation with
  | write data close => exact h.of_status (status_of_withoutInput (withoutInput_write ..))
  | flush => exact h.of_status (status_of_withoutInput (withoutInput_flushStdin ..))
  | closeStdin => exact h.of_status (status_of_withoutInput (withoutInput_closeStdin ..))
  | read stream => exact h.of_status (status_readStream ..)
  | tryWait => exact (h.tryWait hends.logged w).1
  | wait => exact (h.wait hends.logged w).1
  | waitForIo | terminate | elsewhere => exact h
  | terminateWithTimeout fuel grace =>
    exact terminateWithTimeout_rel host.logged (R := fun m m' => m.1.Known → m'.1.Known)
      (fun _ h => h) (fun h g hm => g (h hm)) (fun _ _ _ h => h)
      (fun _ w h => (h.tryWait hends.logged w).1) (fun _ _ h => h) (fun _ _ _ h => h)
      fuel grace child w h

/-- Whatever is done with a child, what is recorded of its end can be recorded. -/
theorem recordable_deal (hends : host.ReportsEnds) (h : child.Known) (w : ω × Log)
    (operations : List (Operation ω)) : (child.deal host w operations).child.Known := by
  induction operations generalizing child w with
  | nil => exact h
  | cons operation rest ih => exact ih (h.perform hends w operation) _

end Child

namespace Run

def Knows : (Run × ω) ⊕ (Except Error RunResult × ω) → Prop
  | .inl (run, _) => run.child.Known
  | .inr (.ok result, _) =>
    ∃ status : ExitStatus, status.Recordable ∧ result.exitStatus = status.code
  | .inr (.error _, _) => True

variable {host : Host ω} {run : Run} {w : ω}

theorem knows_awaitEnd (h : run.child.Known) (hends : host.ReportsEnds) :
    Knows (run.awaitEnd host w) := by
  have hwait := (h.wait hends w).2
  rw [awaitEnd]
  generalize run.child.wait host w = r at hwait ⊢
  obtain ⟨cause | status, child, w'⟩ := r
  · trivial
  · exact ⟨status, hwait status rfl, rfl⟩

theorem knows_lookForEnd (h : run.child.Known) (hends : host.ReportsEnds) :
    Knows (run.lookForEnd host w) := by
  obtain ⟨hknown, hlook⟩ := h.tryWait hends w
  rw [lookForEnd]
  generalize run.child.tryWait host w = r at hknown hlook ⊢
  obtain ⟨cause | _ | status, child, w'⟩ := r
  · trivial
  · dsimp only
    generalize child.waitForIo host ioWait w' = r
    obtain ⟨cause | _, w''⟩ := r
    · trivial
    · exact hknown
  · exact ⟨status, hlook status rfl, rfl⟩

theorem knows_round (h : run.child.Known) (hends : host.ReportsEnds) :
    Knows (round host (run, w)) := by
  have hflush := h.of_status (Child.status_of_withoutInput (withoutInput_flush host run.child w))
  simp only [round]
  generalize flush host run.child w = flushed at hflush ⊢
  have hcollect := hflush.of_status
    (collect_child host { run with child := flushed.1 } flushed.2).1
  split
  · exact knows_awaitEnd hcollect hends
  · exact knows_lookForEnd hcollect hends

theorem knows_rounds (h : run.child.Known) (hends : host.ReportsEnds) (fuel : Nat) :
    Knows (iterate (round host) fuel (run, w)) := by
  induction fuel generalizing run w with
  | zero => exact h
  | succ fuel ih =>
    have hround := knows_round (w := w) h hends
    rw [iterate]
    generalize round host (run, w) = r at hround ⊢
    rcases r with ⟨run', w'⟩ | result
    · exact ih hround
    · exact hround

end Run

/-- What a run to the end gives is the integer form of a status that can be recorded. -/
theorem recordable_runProgram {host : Host ω} (hends : host.ReportsEnds) {fuel : Nat}
    {executable : String} {args : List String} {input : String} {options : LaunchOptions}
    {w w' : ω} {result : RunResult}
    (h : runProgram host fuel executable args input options w = (some (.ok result), w')) :
    ∃ status : ExitStatus, status.Recordable ∧ result.exitStatus = status.code := by
  rw [runProgram] at h
  split at h
  · cases h
  · next child w₁ hspawn =>
    have hfed := (Child.known_of_none (status_of_spawn hspawn)).of_status
      (Child.status_of_withoutInput (Run.withoutInput_feed host input child w₁))
    generalize Run.feed host input child w₁ = fed at h hfed
    obtain ⟨child', w₂⟩ := fed
    have hrounds : Run.Knows (iterate (Run.round host) fuel ({ child := child' }, w₂)) :=
      Run.knows_rounds hfed hends fuel
    dsimp only at h
    generalize iterate (Run.round host) fuel _ = r at h hrounds
    rcases r with ⟨run, w₃⟩ | ⟨_, w₃⟩ <;> cases h
    exact hrounds

/-- **What the integer form of a status tells.**  It tells apart any two statuses that are recorded
for children, whatever is done with these: normal exits by their code, and signals.  The one
exception is that a lost status has the integer form of signal 1.  Whether a process succeeded is
seen from the integer form alone, and what a run to the end gives is such an integer form. -/
theorem code_of_recorded {host : Host ω} {host' : Host ω'} (hends : host.ReportsEnds)
    (hends' : host'.ReportsEnds) {child child' : Child} (hnew : child.status = none)
    (hnew' : child'.status = none) (w : ω × Log) (w' : ω' × Log)
    (operations : List (Operation ω)) (operations' : List (Operation ω')) {a b : ExitStatus}
    (ha : (child.deal host w operations).child.status = some a)
    (hb : (child'.deal host' w' operations').child.status = some b) :
    (a.code = b.code ↔ a = b ∨ a.Confused b) ∧
      (∀ stdout stderr, (RunResult.mk a.code stdout stderr).success = a.success) ∧
      ∀ fuel executable args input options w result w',
        runProgram host fuel executable args input options w = (some (.ok result), w') →
          ∃ status : ExitStatus, status.Recordable ∧ result.exitStatus = status.code ∧
            result.success = status.success := by
  have hrecordable := Child.recordable_deal hends (Child.known_of_none hnew) w operations a ha
  have hrecordable' := Child.recordable_deal hends' (Child.known_of_none hnew') w' operations' b hb
  refine ⟨hrecordable.code_eq_iff hrecordable', hrecordable.success_eq, ?_⟩
  intro fuel executable args input options w result w' hrun
  obtain ⟨status, hstatus, hcode⟩ := recordable_runProgram hends hrun
  refine ⟨status, hstatus, hcode, ?_⟩
  rw [← hstatus.success_eq result.stdout result.stderr, ← hcode]

/-! ### The exception -/

def Host.answering (answer : ReapResult) : Host (List UInt8) :=
  { Host.ended with reap := fun _ w => (answer, w) }

theorem Host.reportsEnds_answering {answer : ReapResult}
    (h : ∀ word, answer = .ended word → ExitStatus.EndWord word) :
    (Host.answering answer).ReportsEnds where
  reap hreap := h _ (congrArg Prod.fst hreap)
  await := by
    rintro _ _ _ _ ⟨⟩
    decide

/-- A child that was reaped by somebody else and one that was ended by signal 1 have statuses that
differ, with the same integer form. -/
theorem code_of_lost_child :
    let child : Child :=
      { pid := 1, stdin := none, stdout := none, stderr := none, leadsGroup := true }
    let lost := (child.deal (Host.answering (.failed Errno.noChild)) ([], []) [.tryWait]).child
    let hungUp := (child.deal (Host.answering (.ended 1)) ([], []) [.tryWait]).child
    lost.status = some .lost ∧ hungUp.status = some (.signaled 1) ∧
      ExitStatus.lost ≠ .signaled 1 ∧ ExitStatus.lost.code = (ExitStatus.signaled 1).code := by
  intro child lost hungUp
  have hlost : lost.status = some .lost := by cbv
  have hhungUp : hungUp.status = some (.signaled 1) := by cbv
  have hfailed : (Host.answering (.failed Errno.noChild)).ReportsEnds := by
    refine Host.reportsEnds_answering ?_
    intro word h
    cases h
  have hended : (Host.answering (.ended 1)).ReportsEnds := by
    refine Host.reportsEnds_answering ?_
    rintro word ⟨⟩
    decide
  have hcode := (code_of_recorded hfailed hended rfl rfl _ _ _ _ hlost hhungUp).1
  exact ⟨hlost, hhungUp, by decide, hcode.mpr (Or.inr (Or.inl ⟨rfl, rfl⟩))⟩

end Chaperone
