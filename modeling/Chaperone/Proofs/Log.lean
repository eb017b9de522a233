import Chaperone.Host

/-!
# The calls to a machine

`host.logged` is the machine `host` together with a list of the calls that were made to it and of
what they gave, oldest first.  It answers as `host` does, so what is proved about runs on
`host.logged` says what those runs ask of `host` and what becomes of the answers.

* `Only P w w'`: between two states of a logged machine only calls that satisfy `P` were made.
* `received pipe log`: the bytes that reading from a pipe gave, in order.
* `accepted pipe log`: the bytes that a pipe took, in order.
* `asked log`: the answers to the questions whether a child has ended, in order.
-/

namespace Chaperone

inductive Call where
  | read (d : Descriptor) (count : Nat) (result : ReadResult)
  | write (d : Descriptor) (bytes : List UInt8) (result : WriteResult)
  | close (d : Descriptor)
  | reap (pid : Pid) (result : ReapResult)
  | await (pid : Pid) (result : Except Errno UInt32)
  | kill (target : Target) (signal : Signal) (result : Except Errno Unit)
  | watch (pipes : List (Descriptor × Interest)) (milliseconds : Nat) (result : Except Errno Unit)
  | sleep (microseconds : Nat)
  | now (time : Nat)
  | start (request : LaunchRequest) (result : Except SystemError Launched)
  | readFile (path : String) (result : Except SystemError (List UInt8))

abbrev Log := List Call

variable {ω : Type}

def Host.logged (host : Host ω) : Host (ω × Log) where
  read d n := fun (w, log) =>
    let (result, w) := host.read d n w
    (result, w, log ++ [.read d n result])
  write d bytes := fun (w, log) =>
    let (result, w) := host.write d bytes w
    (result, w, log ++ [.write d bytes result])
  close d := fun (w, log) => (host.close d w, log ++ [.close d])
  reap pid := fun (w, log) =>
    let (result, w) := host.reap pid w
    (result, w, log ++ [.reap pid result])
  await pid := fun (w, log) =>
    let (result, w) := host.await pid w
    (result, w, log ++ [.await pid result])
  kill target signal := fun (w, log) =>
    let (result, w) := host.kill target signal w
    (result, w, log ++ [.kill target signal result])
  watch pipes milliseconds := fun (w, log) =>
    let (result, w) := host.watch pipes milliseconds w
    (result, w, log ++ [.watch pipes milliseconds result])
  sleep microseconds := fun (w, log) =>
    (host.sleep microseconds w, log ++ [.sleep microseconds])
  now := fun (w, log) =>
    let (time, w) := host.now w
    (time, w, log ++ [.now time])
  start request := fun (w, log) =>
    let (result, w) := host.start request w
    (result, w, log ++ [.start request result])
  view := fun (w, _) => host.view w
  readFile path := fun (w, log) =>
    let (result, w) := host.readFile path w
    (result, w, log ++ [.readFile path result])
  wallClock := fun (w, _) => host.wallClock w
  patience := fun (w, _) => host.patience w
  patience_read h := by
    simp only [Prod.mk.injEq] at h
    obtain ⟨hr, rfl⟩ := h
    exact host.patience_read (Prod.ext hr rfl)
  patience_write h := by
    simp only [Prod.mk.injEq] at h
    obtain ⟨hr, rfl⟩ := h
    exact host.patience_write (Prod.ext hr rfl)
  length_read h := by
    simp only [Prod.mk.injEq] at h
    exact host.length_read (Prod.ext h.1 rfl)
  count_write h := by
    simp only [Prod.mk.injEq] at h
    exact host.count_write (Prod.ext h.1 rfl)
  nodup_start h := by
    simp only [Prod.mk.injEq] at h
    exact host.nodup_start (Prod.ext h.1 rfl)

/-! ### What a log says -/

def Call.payload (pipe : Option Descriptor) : Call → List UInt8
  | .read d _ (.bytes chunk) => if pipe = some d then chunk else []
  | _ => []

/-- The bytes that were read from a pipe; nothing comes from a pipe that is not there. -/
def received (pipe : Option Descriptor) (log : Log) : List UInt8 := log.flatMap (Call.payload pipe)

def Call.gift (pipe : Option Descriptor) : Call → List UInt8
  | .write d bytes (.wrote count) => if pipe = some d then bytes.take count else []
  | _ => []

/-- The bytes that a pipe took. -/
def accepted (pipe : Option Descriptor) (log : Log) : List UInt8 := log.flatMap (Call.gift pipe)

def ReapResult.ofAwait : Except Errno UInt32 → ReapResult
  | .ok word => .ended word
  | .error errno => .failed errno

def Call.question? : Call → Option (Pid × ReapResult)
  | .reap pid result => some (pid, result)
  | .await pid result => some (pid, .ofAwait result)
  | _ => none

def asked (log : Log) : List (Pid × ReapResult) := log.filterMap Call.question?

@[simp] theorem received_append (pipe : Option Descriptor) (log more : Log) :
    received pipe (log ++ more) = received pipe log ++ received pipe more := by
  simp [received]

@[simp] theorem accepted_append (pipe : Option Descriptor) (log more : Log) :
    accepted pipe (log ++ more) = accepted pipe log ++ accepted pipe more := by
  simp [accepted]

@[simp] theorem received_none (log : Log) : received none log = [] := by
  rw [received, List.flatMap_eq_nil_iff]
  intro call _
  cases call with
  | read d count result => cases result <;> rfl
  | _ => rfl

@[simp] theorem asked_append (log more : Log) : asked (log ++ more) = asked log ++ asked more := by
  simp [asked]

/-- A call that gives the child something: input, the end of its input or a signal. -/
def Call.Tells : Call → Prop
  | .write _ _ _ | .close _ | .kill _ _ _ => True
  | _ => False

def Call.Drains (pipe : Option Descriptor) : Call → Prop
  | .read d _ _ | .close d => pipe = some d
  | _ => False

def Call.Empties : Call → Prop
  | .read _ _ _ | .close _ => True
  | _ => False

def Call.Writes : Call → Prop
  | .write _ _ _ => True
  | _ => False

def Call.Asks : Call → Prop
  | .reap _ _ | .await _ _ => True
  | _ => False

def Call.Waits : Call → Prop
  | .watch _ _ _ | .sleep _ | .now _ => True
  | _ => False

/-- Whether a call fails in a way that ends a run.  That a child is gone or a wait was interrupted
does not. -/
def Call.fails : Call → Bool
  | .reap _ (.failed errno) | .await _ (.error errno) => errno != Errno.noChild
  | .watch _ _ (.error errno) => errno != Errno.interrupted
  | _ => false

/-! ### Calls of one kind -/

/-- Between two states of a logged machine only calls of a kind are made. -/
def Only (P : Call → Prop) (w w' : ω × Log) : Prop :=
  ∃ calls : Log, w'.2 = w.2 ++ calls ∧ ∀ call ∈ calls, P call

namespace Only

variable {P Q : Call → Prop} {w w' w'' : ω × Log}

/-- No call is made, whatever else happens to the machine. -/
theorem of_eq (P : Call → Prop) (hw : w'.2 = w.2) : Only P w w' :=
  ⟨[], by rw [hw, List.append_nil], by simp⟩

theorem refl (P : Call → Prop) (w : ω × Log) : Only P w w := of_eq P rfl

theorem trans (h : Only P w w') (g : Only P w' w'') : Only P w w'' := by
  obtain ⟨calls, hc, hP⟩ := h
  obtain ⟨more, hm, hQ⟩ := g
  refine ⟨calls ++ more, by rw [hm, hc, List.append_assoc], ?_⟩
  intro call hcall
  rcases List.mem_append.mp hcall with hcall | hcall
  · exact hP call hcall
  · exact hQ call hcall

theorem one (call : Call) (hP : P call) (hw : w'.2 = w.2 ++ [call]) : Only P w w' :=
  ⟨[call], hw, by simpa using hP⟩

theorem imp (h : Only P w w') (hPQ : ∀ call, P call → Q call) : Only Q w w' := by
  obtain ⟨calls, hc, hcalls⟩ := h
  exact ⟨calls, hc, fun call hcall => hPQ call (hcalls call hcall)⟩

/-- What is said of the calls between two moments is said of those that were made. -/
theorem of_log (h : Only P w w') {calls : Log} (hlog : w'.2 = w.2 ++ calls) :
    ∀ call ∈ calls, P call := by
  obtain ⟨made, hmade, hP⟩ := h
  obtain rfl := List.append_cancel_left (hlog.symm.trans hmade)
  exact hP

theorem of_one (h : Only P w w') {call : Call} (hlog : w'.2 = w.2 ++ [call]) : P call :=
  h.of_log hlog call (List.mem_singleton_self call)

/-- What is said of all calls is said of the first ones and of the others. -/
theorem split (h : Only P w w'') (hfirst : w.2 <+: w'.2) (hrest : w'.2 <+: w''.2) :
    Only P w w' ∧ Only P w' w'' := by
  obtain ⟨first, hfirst⟩ := hfirst
  obtain ⟨rest, hrest⟩ := hrest
  have hlog : w''.2 = w.2 ++ (first ++ rest) := by
    rw [← hrest, ← hfirst, List.append_assoc]
  obtain ⟨hP, hQ⟩ := List.forall_mem_append.mp (h.of_log hlog)
  exact ⟨⟨first, hfirst.symm, hP⟩, rest, hrest.symm, hQ⟩

/-- Calls that read nothing from a pipe leave what was received from it. -/
theorem received_eq (h : Only P w w') {pipe : Option Descriptor}
    (hP : ∀ call, P call → call.payload pipe = []) : received pipe w'.2 = received pipe w.2 := by
  obtain ⟨calls, hc, hcalls⟩ := h
  have hnil : received pipe calls = [] :=
    List.flatMap_eq_nil_iff.mpr fun call hcall => hP call (hcalls call hcall)
  rw [hc, received_append, hnil, List.append_nil]

/-- Calls that write nothing leave what a pipe took. -/
theorem accepted_eq (h : Only P w w') (hP : ∀ call, P call → ¬call.Writes)
    (pipe : Option Descriptor) : accepted pipe w'.2 = accepted pipe w.2 := by
  obtain ⟨calls, hc, hcalls⟩ := h
  have hnil : accepted pipe calls = [] := by
    refine List.flatMap_eq_nil_iff.mpr fun call hcall => ?_
    have hquiet := hP call (hcalls call hcall)
    cases call with
    | write => exact absurd trivial hquiet
    | _ => rfl
  rw [hc, accepted_append, hnil, List.append_nil]

/-- Calls that ask nothing leave what was asked. -/
theorem asked_eq (h : Only P w w') (hP : ∀ call, P call → call.question? = none) :
    asked w'.2 = asked w.2 := by
  obtain ⟨calls, hc, hcalls⟩ := h
  have hnil : asked calls = [] :=
    List.filterMap_eq_nil_iff.mpr fun call hcall => hP call (hcalls call hcall)
  rw [hc, asked_append, hnil, List.append_nil]

end Only

theorem Call.Tells.payload {call : Call} (h : call.Tells) (pipe : Option Descriptor) :
    call.payload pipe = [] := by
  cases call with
  | read => exact h.elim
  | _ => rfl

theorem Call.Asks.payload {call : Call} (h : call.Asks) (pipe : Option Descriptor) :
    call.payload pipe = [] := by
  cases call with
  | read => exact h.elim
  | _ => rfl

theorem Call.Waits.payload {call : Call} (h : call.Waits) (pipe : Option Descriptor) :
    call.payload pipe = [] := by
  cases call with
  | read => exact h.elim
  | _ => rfl

theorem Call.Waits.question? {call : Call} (h : call.Waits) : call.question? = none := by
  cases call with
  | reap | await => exact h.elim
  | _ => rfl

theorem Call.Tells.question? {call : Call} (h : call.Tells) : call.question? = none := by
  cases call with
  | reap | await => exact h.elim
  | _ => rfl

theorem Call.Drains.question? {call : Call} {pipe : Option Descriptor} (h : call.Drains pipe) :
    call.question? = none := by
  cases call with
  | reap | await => exact h.elim
  | _ => rfl

theorem Call.Drains.empties {call : Call} {pipe : Option Descriptor} (h : call.Drains pipe) :
    call.Empties := by
  cases call with
  | read | close => trivial
  | _ => exact h.elim

theorem Call.Empties.not_writes {call : Call} (h : call.Empties) : ¬call.Writes := by
  cases call with
  | write => exact h.elim
  | _ => exact id

theorem Call.Waits.not_writes {call : Call} (h : call.Waits) : ¬call.Writes := by
  cases call with
  | write => exact h.elim
  | _ => exact id

/-- Draining one pipe reads nothing from another. -/
theorem Call.Drains.payload {call : Call} {pipe other : Option Descriptor} (h : call.Drains pipe)
    (hne : ∀ d, pipe = some d → other ≠ some d) : call.payload other = [] := by
  cases call with
  | read d count result =>
    cases result with
    | bytes chunk => exact if_neg (hne d h)
    | _ => rfl
  | _ => rfl

end Chaperone
