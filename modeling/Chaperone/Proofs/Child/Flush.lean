import Chaperone.Proofs.Child.Input

/-!
# What a flush does

A flush offers the pipe all that is queued, and again what is left, until the queue is empty or the
pipe takes no more (`Feeding`).  How it ends is one of four things (`Flushed`): the pipe is full and
what is left waits for the next flush, the queue is empty, the input was closed because that was
asked for, or it was closed because the pipe failed.
-/

namespace Chaperone

variable {ω : Type}

def WriteResult.count : WriteResult → Nat
  | .wrote count => count
  | _ => 0

def WriteResult.flaw? (pid : Pid) : WriteResult → Option WriteError
  | .wrote 0 | .brokenPipe => some (.closed pid)
  | .failed cause => some (.osFailure pid cause)
  | _ => none

/-- Calls that write a queue to a pipe, and what is left of it then.  Each call offers all that is
left, and there is something left. -/
inductive Feeding (d : Descriptor) : List UInt8 → Log → List UInt8 → Prop where
  | stop (queue : List UInt8) : Feeding d queue [] queue
  | write {queue left : List UInt8} {result : WriteResult} {log : Log} (hne : queue ≠ [])
      (h : Feeding d (queue.drop result.count) log left) :
      Feeding d queue (.write d queue result :: log) left

inductive Flushed (child : Child) (d : Descriptor) :
    Log → Except WriteError Unit → Child → Prop where
  /-- The pipe is full. -/
  | waits {log : Log} {left : List UInt8} (h : Feeding d child.pendingInput log left)
      (hne : left ≠ []) (hlast : log.getLast? = some (.write d left .wouldBlock)) :
      Flushed child d log (.ok ()) { child with pendingInput := left }
  /-- The queue is empty. -/
  | empties {log : Log} (h : Feeding d child.pendingInput log [])
      (hflag : child.closeWhenFlushed = false) :
      Flushed child d log (.ok ()) { child with pendingInput := [] }
  /-- The queue is empty, and the input was to be closed then. -/
  | ends {log : Log} (h : Feeding d child.pendingInput log [])
      (hflag : child.closeWhenFlushed = true) :
      Flushed child d (log ++ [.close d]) (.ok ()) child.withoutInput
  /-- The pipe failed. -/
  | fails {log : Log} {left : List UInt8} {r : WriteResult} {cause : WriteError}
      (h : Feeding d child.pendingInput log left) (hlast : log.getLast? = some (.write d left r))
      (hcause : r.flaw? child.pid = some cause) :
      Flushed child d (log ++ [.close d]) (.error cause) child.withoutInput

/-- A pipe that fails takes nothing. -/
theorem WriteResult.count_of_flaw {r : WriteResult} {pid : Pid} {cause : WriteError}
    (h : r.flaw? pid = some cause) : r.count = 0 := by
  cases r with
  | wrote count =>
    cases count with
    | zero => rfl
    | succ count => cases h
  | _ => rfl

namespace Feeding

variable {d : Descriptor} {queue left : List UInt8} {log : Log}

/-- What the pipe took and what is left are the queue. -/
theorem accepted_append (h : Feeding d queue log left) : accepted (some d) log ++ left = queue := by
  induction h with
  | stop queue => rfl
  | @write queue left result log hne h ih =>
    have hgift : Call.gift (some d) (.write d queue result) = queue.take result.count := by
      cases result <;> simp [Call.gift, WriteResult.count]
    rw [accepted, List.flatMap_cons, hgift, List.append_assoc]
    change _ ++ (accepted (some d) log ++ left) = _
    rw [ih, List.take_append_drop]

theorem nothing (h : queue = []) : Feeding d queue [] [] := by
  rw [h]
  exact .stop []

theorem accepted_eq (h : Feeding d queue log []) : accepted (some d) log = queue := by
  have := h.accepted_append
  rwa [List.append_nil] at this

end Feeding

namespace Flushed

variable {child child' : Child} {d : Descriptor} {result : Except WriteError Unit} {calls : Log}

/-- One write, and then the rest of a flush. -/
theorem write {r : WriteResult} (hne : child.pendingInput ≠ [])
    (h : Flushed { child with pendingInput := child.pendingInput.drop r.count } d calls result
      child') : Flushed child d (.write d child.pendingInput r :: calls) result child' := by
  have hlater {log : Log} {call : Call} (h : log.getLast? = some call) :
      (Call.write d child.pendingInput r :: log).getLast? = some call := by
    rw [List.getLast?_cons, h, Option.getD_some]
  cases h with
  | waits h hleft hlast => exact .waits (.write hne h) hleft (hlater hlast)
  | empties h hflag => exact .empties (.write hne h) hflag
  | ends h hflag => exact .ends (.write hne h) hflag
  | fails h hlast hcause => exact .fails (.write hne h) (hlater hlast) hcause

/-- A flush keeps the pipe or releases it. -/
theorem stdin (h : Flushed child d calls result child') :
    child'.stdin = none ∨ child'.stdin = child.stdin := by
  cases h with
  | waits | empties => exact Or.inr rfl
  | ends | fails => exact Or.inl rfl

theorem withoutInput (h : Flushed child d calls result child') :
    child'.withoutInput = child.withoutInput := by
  cases h <;> rfl

/-- A flush that closes the pipe without a failure does so because that was asked for, right after
the writes that emptied the queue. -/
theorem closed (h : Flushed child d calls (.ok ()) child') (hd : child.stdin = some d)
    (hclosed : child'.stdin = none) : child.closeWhenFlushed = true ∧
      ∃ writes, Feeding d child.pendingInput writes [] ∧ calls = writes ++ [.close d] := by
  cases h with
  | waits | empties => cases hd.symm.trans hclosed
  | @ends writes hfeeding hflag => exact ⟨hflag, writes, hfeeding, rfl⟩

end Flushed

theorem log_of_write {host : Host ω} {d : Descriptor} {bytes : List UInt8} {w w' : ω × Log}
    {result : WriteResult} (h : host.logged.write d bytes w = (result, w')) :
    w'.2 = w.2 ++ [.write d bytes result] := by
  obtain ⟨rfl, rfl⟩ := Prod.mk.inj h
  rfl

namespace Child

variable {child : Child} {d : Descriptor}

theorem log_of_closeStdin (host : Host ω) (hd : child.stdin = some d) (w : ω × Log) :
    (child.closeStdin host.logged w).2.2 = w.2 ++ [.close d] := by
  simp only [closeStdin, hd]
  rfl

/-- The pipe fails when it is offered the queue. -/
theorem failStdin_spec {host : Host ω} {w w' : ω × Log} {r : WriteResult} {cause : WriteError}
    (hd : child.stdin = some d) (hne : child.pendingInput ≠ [])
    (hcause : r.flaw? child.pid = some cause)
    (hw : host.logged.write d child.pendingInput w = (r, w')) :
    ∃ calls, (child.failStdin host.logged cause w').2.2.2 = w.2 ++ calls ∧
      Flushed child d calls (child.failStdin host.logged cause w').1
        (child.failStdin host.logged cause w').2.1 := by
  have hfeeding : Feeding d child.pendingInput [.write d child.pendingInput r]
      child.pendingInput := by
    refine .write hne ?_
    rw [WriteResult.count_of_flaw hcause]
    exact .stop _
  refine ⟨[.write d child.pendingInput r] ++ [.close d], ?_, .fails hfeeding rfl hcause⟩
  rw [← List.append_assoc, ← log_of_write hw]
  exact log_of_closeStdin host hd w'

/-- **What a flush does** while the input is open. -/
theorem flushStdin_spec (host : Host ω) (child : Child) (w : ω × Log) (hd : child.stdin = some d) :
    ∃ calls, (child.flushStdin host.logged w).2.2.2 = w.2 ++ calls ∧
      Flushed child d calls (child.flushStdin host.logged w).1
        (child.flushStdin host.logged w).2.1 := by
  fun_induction flushStdin host.logged child w with
  | case1 child w hp hflag child' w' hc =>
    have hlog := log_of_closeStdin host hd w
    rw [hc] at hlog
    obtain rfl : child.withoutInput = child' := congrArg Prod.fst hc
    exact ⟨[] ++ [.close d], hlog, .ends (.nothing hp) hflag⟩
  | case2 child w hp hflag =>
    have hchild : { child with pendingInput := [] } = child := by rw [← hp]
    have hempties := Flushed.empties (Feeding.nothing (d := d) hp) (Bool.not_eq_true _ ▸ hflag)
    rw [hchild] at hempties
    exact ⟨[], (List.append_nil _).symm, hempties⟩
  | case3 child w b rest hp hnone => cases hd.symm.trans hnone
  | case4 child w b rest hp d' hd' w' hw
  | case8 child w b rest hp d' hd' w' hw
  | case9 child w b rest hp d' hd' cause w' hw =>
    obtain rfl : d = d' := Option.some.inj (hd.symm.trans hd')
    rw [← hp] at hw
    exact failStdin_spec hd (by simp [hp]) rfl hw
  | case5 child w b rest hp d' hd' count w' hw ih =>
    obtain rfl : d = d' := Option.some.inj (hd.symm.trans hd')
    obtain ⟨calls, hlog, hflushed⟩ := ih hd
    rw [← hp] at hw
    have hdrop : rest.drop count =
        child.pendingInput.drop (WriteResult.wrote (count + 1)).count := by
      rw [hp]
      rfl
    rw [hdrop] at hflushed hlog ⊢
    refine ⟨.write d child.pendingInput (.wrote (count + 1)) :: calls, ?_,
      hflushed.write (by simp [hp])⟩
    rw [hlog, log_of_write hw, List.append_assoc]
    rfl
  | case6 child w b rest hp d' hd' w' hw =>
    obtain rfl : d = d' := Option.some.inj (hd.symm.trans hd')
    rw [← hp] at hw
    exact ⟨[.write d child.pendingInput .wouldBlock], log_of_write hw,
      .waits (.write (by simp [hp]) (.stop _)) (by simp [hp]) rfl⟩
  | case7 child w b rest hp d' hd' w' hw ih =>
    obtain rfl : d = d' := Option.some.inj (hd.symm.trans hd')
    obtain ⟨calls, hlog, hflushed⟩ := ih hd
    rw [← hp] at hw
    refine ⟨.write d child.pendingInput .interrupted :: calls, ?_,
      Flushed.write (by simp [hp]) hflushed⟩
    rw [hlog, log_of_write hw, List.append_assoc]
    rfl

end Child

end Chaperone
