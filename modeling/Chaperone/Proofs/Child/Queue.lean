import Chaperone.Proofs.Child.Sound

/-!
# The way of the input

What is written to a child goes to its pipe in the order of the writes, and nothing of it is lost,
repeated or exchanged while the pipe is open: what the pipe took and what waits are what was
offered (`Queue`).  If the end of the input was asked for, the pipe is closed by the write that
empties the queue, and not before (`Concluded`).

A pipe can be closed for other reasons, and then what waits is dropped: because the caller closes
it, because it fails, or because the exit is seen.  In any case nothing is written afterwards.
-/

namespace Chaperone

variable {ω : Type}

/-! ### What was offered -/

def Child.refuses (child : Child) : Bool := child.exited || !child.stdinOpen

namespace Deed

/-- The data that was offered: that of a write, unless it was refused. -/
def data (deed : Deed ω) : List UInt8 :=
  match deed.operation with
  | .write data _ => if deed.child.refuses then [] else data
  | _ => []

def asksEnd (deed : Deed ω) : Bool :=
  match deed.operation with
  | .write _ close => close && !deed.child.refuses
  | _ => false

/-- The input is closed afterwards: the caller closed it, or could not write. -/
def Closes (deed : Deed ω) : Prop :=
  deed.operation = .closeStdin ∨ ∃ cause, deed.answer = .fed (.error cause)

structure Aside (deed : Deed ω) : Prop where
  data : deed.data = []
  asksEnd : deed.asksEnd = false
  not_closes : ¬deed.Closes

end Deed

def Operation.SparesInput : Operation ω → Prop
  | .write _ _ | .flush | .closeStdin => False
  | _ => True

def offered (past : List (Deed ω)) : List UInt8 := past.flatMap Deed.data

def endAsked (past : List (Deed ω)) : Bool := past.any Deed.asksEnd

@[simp] theorem offered_append (past more : List (Deed ω)) :
    offered (past ++ more) = offered past ++ offered more := by
  simp [offered]

@[simp] theorem offered_singleton (deed : Deed ω) : offered [deed] = deed.data := by
  simp [offered]

@[simp] theorem endAsked_append (past more : List (Deed ω)) :
    endAsked (past ++ more) = (endAsked past || endAsked more) := by
  simp [endAsked]

@[simp] theorem endAsked_singleton (deed : Deed ω) : endAsked [deed] = deed.asksEnd := by
  simp [endAsked]

/-- Where the offered data is, for a child whose input had the pipe `d` at first. -/
structure Queue (d : Descriptor) (past : List (Deed ω)) (child : Child) (log : Log) : Prop where
  stdin : child.stdin = none ∨ child.stdin = some d
  /-- While the pipe is open, it took the front and the rest waits. -/
  whole : child.stdin = some d → accepted (some d) log ++ child.pendingInput = offered past
  /-- The pipe never took anything else. -/
  front : accepted (some d) log <+: offered past
  flag : child.stdin = some d → child.closeWhenFlushed = endAsked past
  closed : (∃ deed ∈ past, deed.Closes) → child.stdin = none

/-- The end of the input came in its turn: all offered data was taken, and the call that closed the
pipe followed the writes that emptied the queue. -/
structure Concluded (d : Descriptor) (past : List (Deed ω)) (queue : List UInt8)
    (before after : Log) : Prop where
  asked : endAsked past
  all : accepted (some d) after = offered past
  next : ∃ writes, Feeding d queue writes [] ∧ after = before ++ (writes ++ [.close d])

namespace Queue

variable {d : Descriptor} {past : List (Deed ω)} {child child' : Child} {w w' : ω × Log}
  {deed : Deed ω}

/-- An operation that leaves the input alone. -/
theorem keep (h : Queue d past child w.2) (hstdin : child'.stdin = child.stdin)
    (hpending : child'.pendingInput = child.pendingInput)
    (hflag : child'.closeWhenFlushed = child.closeWhenFlushed)
    (hw : Only (fun call => ¬call.Writes) w w') (haside : deed.Aside) :
    Queue d (past ++ [deed]) child' w'.2 := by
  have haccepted := hw.accepted_eq (fun _ hcall => hcall) (some d)
  refine ⟨?_, ?_, ?_, ?_, ?_⟩
  · rw [hstdin]
    exact h.stdin
  · intro hd
    rw [haccepted, hpending, offered_append, offered_singleton, haside.data, List.append_nil]
    exact h.whole (hstdin ▸ hd)
  · rw [haccepted, offered_append]
    exact h.front.trans (List.prefix_append _ _)
  · intro hd
    rw [hflag, endAsked_append, endAsked_singleton, haside.asksEnd, Bool.or_false]
    exact h.flag (hstdin ▸ hd)
  · rintro ⟨other, hmem, hother⟩
    rw [hstdin]
    rcases List.mem_append.mp hmem with hmem | hmem
    · exact h.closed ⟨other, hmem, hother⟩
    · rw [List.mem_singleton.mp hmem] at hother
      exact absurd hother haside.not_closes

/-- An operation after which the input is closed. -/
theorem close (hd : child'.stdin = none)
    (hfront : accepted (some d) w'.2 <+: offered (past ++ [deed])) :
    Queue d (past ++ [deed]) child' w'.2 := by
  have hnot : child'.stdin ≠ some d := by
    rw [hd]
    exact nofun
  exact ⟨Or.inl hd, fun h => absurd h hnot, hfront, fun h => absurd h hnot, fun _ => hd⟩

/-- An operation that closes the input and writes nothing. -/
theorem release (h : Queue d past child w.2) (hd : child'.stdin = none)
    (hw : Only (fun call => ¬call.Writes) w w') : Queue d (past ++ [deed]) child' w'.2 := by
  refine close hd ?_
  rw [hw.accepted_eq (fun _ hcall => hcall), offered_append]
  exact h.front.trans (List.prefix_append _ _)

/-- An operation that offers the pipe data. -/
theorem feed (h : Queue d past child w.2) (hd : child.stdin = some d) {calls : Log}
    {result : Except WriteError Unit} (hlog : w'.2 = w.2 ++ calls)
    (hflushed : Flushed
      { child with
        pendingInput := child.pendingInput ++ deed.data
        closeWhenFlushed := child.closeWhenFlushed || deed.asksEnd } d calls result child')
    (hoperation : deed.operation ≠ .closeStdin) (hanswer : deed.answer = .fed result) :
    Queue d (past ++ [deed]) child' w'.2 := by
  have hoffered : accepted (some d) w.2 ++ (child.pendingInput ++ deed.data) =
      offered (past ++ [deed]) := by
    rw [← List.append_assoc, h.whole hd, offered_append, offered_singleton]
  have hended : (child.closeWhenFlushed || deed.asksEnd) = endAsked (past ++ [deed]) := by
    rw [h.flag hd, endAsked_append, endAsked_singleton]
  have hopen (hresult : result = .ok ()) : ¬∃ other ∈ past ++ [deed], other.Closes := by
    rintro ⟨other, hmem, hother⟩
    rcases List.mem_append.mp hmem with hmem | hmem
    · cases hd.symm.trans (h.closed ⟨other, hmem, hother⟩)
    · rw [List.mem_singleton.mp hmem] at hother
      rcases hother with hother | ⟨cause, hother⟩
      · exact hoperation hother
      · rw [hanswer, hresult] at hother
        cases hother
  -- What the pipe took of the queue, and what is left.
  have htook {writes : Log} {left : List UInt8}
      (hfeeding : Feeding d (child.pendingInput ++ deed.data) writes left) :
      accepted (some d) (w.2 ++ writes) ++ left = offered (past ++ [deed]) := by
    rw [accepted_append, List.append_assoc, hfeeding.accepted_append, hoffered]
  have hclosing (writes : Log) : accepted (some d) (w.2 ++ (writes ++ [.close d])) =
      accepted (some d) (w.2 ++ writes) := by
    rw [accepted_append, accepted_append, accepted_append]
    exact congrArg _ (List.append_nil _)
  cases hflushed with
  | @waits log left hfeeding hne =>
    have hall := htook hfeeding
    rw [← hlog] at hall
    exact ⟨Or.inr hd, fun _ => hall, ⟨left, hall⟩, fun _ => hended,
      fun hany => absurd hany (hopen rfl)⟩
  | @empties log hfeeding hflag =>
    have hall := htook hfeeding
    rw [← hlog] at hall
    exact ⟨Or.inr hd, fun _ => hall, ⟨[], hall⟩, fun _ => hended,
      fun hany => absurd hany (hopen rfl)⟩
  | @ends writes hfeeding hflag =>
    refine close rfl ⟨[], ?_⟩
    rw [hlog, hclosing]
    exact htook hfeeding
  | @fails writes left r cause hfeeding =>
    refine close rfl ⟨left, ?_⟩
    rw [hlog, hclosing]
    exact htook hfeeding

end Queue

/-! ### What one operation does with the input -/

namespace Child

def Observed (child child' : Child) : Prop :=
  child' = child ∨ child'.stdin = none ∧ child'.exited = true

theorem Observed.trans {child child' child'' : Child} (h : Observed child child')
    (g : Observed child' child'') : Observed child child'' := by
  rcases g with rfl | hgone
  · exact h
  · exact Or.inr hgone

theorem observed_recordExit (host : Host ω) (status : ExitStatus) (child : Child) (w : ω) :
    Observed child (child.recordExit host status w).1 :=
  Or.inr ⟨(input_recordExit host status child w).1, rfl⟩

theorem observed_tryWait (host : Host ω) (child : Child) (w : ω × Log) :
    Observed child (child.tryWait host.logged w).2.1 ∧
      Only (fun call => ¬call.Writes) w (child.tryWait host.logged w).2.2 := by
  have hasks : Only (fun call => ¬call.Writes) w (host.logged.reap child.pid w).2 :=
    .one (.reap child.pid _) id rfl
  obtain ⟨status, -, h⟩ | ⟨status, -, -, h⟩ | ⟨-, -, h⟩ := child.tryWait_cases host.logged w
  · rw [h]
    exact ⟨Or.inl rfl, .refl _ _⟩
  · rw [h]
    exact ⟨observed_recordExit ..,
      hasks.trans ((empties_recordExit ..).imp fun _ hcall => hcall.not_writes)⟩
  · rw [h]
    exact ⟨Or.inl rfl, hasks⟩

theorem observed_wait (host : Host ω) (child : Child) (w : ω × Log) :
    Observed child (child.wait host.logged w).2.1 ∧
      Only (fun call => ¬call.Writes) w (child.wait host.logged w).2.2 := by
  have hasks : Only (fun call => ¬call.Writes) w (host.logged.await child.pid w).2 :=
    .one (.await child.pid _) id rfl
  obtain ⟨status, -, h⟩ | ⟨status, -, -, h⟩ | ⟨-, -, cause, h⟩ := child.wait_cases host.logged w
  · rw [h]
    exact ⟨Or.inl rfl, .refl _ _⟩
  · rw [h]
    exact ⟨observed_recordExit ..,
      hasks.trans ((empties_recordExit ..).imp fun _ hcall => hcall.not_writes)⟩
  · rw [h]
    exact ⟨Or.inl rfl, hasks⟩

theorem quiet_signal (host : Host ω) (child : Child) (w : ω × Log) (signal : Signal) :
    Only (fun call => ¬call.Writes) w (child.signal host.logged signal w).2 := by
  obtain ⟨-, h⟩ | ⟨-, result, h⟩ := signal_cases host child w signal
  · rw [h]
    exact .refl _ _
  · exact .one _ id h

theorem observed_terminateWithTimeout (host : Host ω) (child : Child) (fuel grace : Nat)
    (w : ω × Log) :
    Observed child (child.terminateWithTimeout host.logged fuel grace w).2.1 ∧
      Only (fun call => ¬call.Writes) w (child.terminateWithTimeout host.logged fuel grace w).2.2 :=
  terminateWithTimeout_rel host.logged
    (R := fun m m' => Observed m.1 m'.1 ∧ Only (fun call => ¬call.Writes) m.2 m'.2)
    (fun _ => ⟨Or.inl rfl, .refl _ _⟩) (fun h g => ⟨h.1.trans g.1, h.2.trans g.2⟩)
    (fun child signal w => ⟨Or.inl rfl, quiet_signal host child w signal⟩)
    (observed_tryWait host) (fun _ _ => ⟨Or.inl rfl, .one (.now _) id rfl⟩)
    (fun _ microseconds _ => ⟨Or.inl rfl, .one (.sleep microseconds) id rfl⟩) fuel grace child w

end Child

inductive Deed.Handles (deed : Deed ω) (child' : Child) (w w' : ω × Log) : Prop where
  /-- It leaves it alone. -/
  | alone (hstdin : child'.stdin = deed.child.stdin)
      (hpending : child'.pendingInput = deed.child.pendingInput)
      (hflag : child'.closeWhenFlushed = deed.child.closeWhenFlushed)
      (hw : Only (fun call => ¬call.Writes) w w') (haside : deed.Aside)
  /-- It closes it, or finds it closed. -/
  | released (hd : child'.stdin = none) (hw : Only (fun call => ¬call.Writes) w w')
      (hwhy : deed.child.stdin = none ∨ deed.operation = .closeStdin ∨ child'.exited = true)
  /-- It offers the pipe data. -/
  | fed {d : Descriptor} {calls : Log} {result : Except WriteError Unit}
      (hd : deed.child.stdin = some d) (hlog : w'.2 = w.2 ++ calls)
      (hflushed : Flushed
        { deed.child with
          pendingInput := deed.child.pendingInput ++ deed.data
          closeWhenFlushed := deed.child.closeWhenFlushed || deed.asksEnd } d calls result child')
      (hoperation : deed.operation ≠ .closeStdin) (hanswer : deed.answer = .fed result)

namespace Child

def deed (host : Host ω) (child : Child) (w : ω × Log) (operation : Operation ω) : Deed ω :=
  ⟨child, operation, (child.perform host w operation).1⟩

theorem Sound.refuses {child : Child} (h : child.Sound) (hrefuses : child.refuses = true) :
    child.stdin = none := by
  rcases Bool.or_eq_true _ _ ▸ hrefuses with hexited | hclosed
  · exact (h.released hexited).1
  · simpa [stdinOpen] using hclosed

theorem aside_of_sparesInput (host : Host ω) (child : Child) (w : ω × Log)
    {operation : Operation ω} (h : operation.SparesInput) :
    (child.deed host w operation).Aside := by
  cases operation with
  | write | flush | closeStdin => exact h.elim
  | read | tryWait | wait | waitForIo | terminate | terminateWithTimeout | elsewhere =>
    refine ⟨rfl, rfl, ?_⟩
    rintro (hoperation | ⟨cause, hanswer⟩)
    · cases hoperation
    · cases hanswer

/-- A child that was only looked at. -/
theorem Observed.handles {child child' : Child} (h : Observed child child') {w w' : ω × Log}
    (hw : Only (fun call => ¬call.Writes) w w') {deed : Deed ω} (hchild : deed.child = child)
    (haside : deed.Aside) : deed.Handles child' w w' := by
  subst hchild
  rcases h with rfl | ⟨hd, hexited⟩
  · exact .alone rfl rfl rfl hw haside
  · exact .released hd hw (Or.inr (Or.inr hexited))

theorem handles_perform (host : Host ω) {child : Child} (hsound : child.Sound) (w : ω × Log)
    (operation : Operation ω) :
    (child.deed host w operation).Handles (child.perform host w operation).2.1 w
      (child.perform host w operation).2.2 := by
  cases operation with
  | write data close =>
    cases hrefuses : child.refuses with
    | true =>
      have hwrite : child.write host.logged data close w = (.error (.closed child.pid), child, w) :=
        if_pos hrefuses
      have hd := hsound.refuses hrefuses
      simp only [perform, hwrite]
      exact .released hd (.refl _ _) (Or.inl hd)
    | false =>
      have hopen : child.stdin.isSome := by
        by_contra hclosed
        simp [refuses, stdinOpen, hclosed] at hrefuses
      obtain ⟨d, hd⟩ := Option.isSome_iff_exists.mp hopen
      obtain ⟨calls, hlog, hflushed⟩ := flushStdin_spec host
        { child with
          pendingInput := child.pendingInput ++ data
          closeWhenFlushed := child.closeWhenFlushed || close } w hd
      have hwrite : child.write host.logged data close w = flushStdin host.logged
          { child with
            pendingInput := child.pendingInput ++ data
            closeWhenFlushed := child.closeWhenFlushed || close } w :=
        if_neg (Bool.not_eq_true _ ▸ hrefuses)
      have hdata : (child.deed host w (.write data close)).data = data :=
        if_neg (Bool.not_eq_true _ ▸ hrefuses)
      have hend : (child.deed host w (.write data close)).asksEnd = close := by
        simp only [deed, Deed.asksEnd, hrefuses, Bool.not_false, Bool.and_true]
      rw [← hwrite] at hlog hflushed
      have hoperation : (child.deed host w (.write data close)).operation ≠ .closeStdin := by
        intro h
        cases h
      refine .fed hd hlog ?_ hoperation rfl
      rw [hdata, hend]
      exact hflushed
  | flush =>
    cases hd : child.stdin with
    | none =>
      obtain ⟨hpending, hflag⟩ := hsound.idle hd
      have hflush := flushStdin_of_idle host.logged hpending hflag w
      have hanswer : (child.deed host w .flush).answer = .fed (.ok ()) := by
        simp only [deed, perform, hflush]
      simp only [perform, hflush]
      refine .alone rfl rfl rfl (.refl _ _) ⟨rfl, rfl, ?_⟩
      rintro (hoperation | ⟨cause, herror⟩)
      · cases hoperation
      · cases hanswer.symm.trans herror
    | some d =>
      obtain ⟨calls, hlog, hflushed⟩ := flushStdin_spec host child w hd
      have hoperation : (child.deed host w .flush).operation ≠ .closeStdin := by
        intro h
        cases h
      refine .fed hd hlog ?_ hoperation rfl
      have hdata : (child.deed host w .flush).data = [] := rfl
      have hend : (child.deed host w .flush).asksEnd = false := rfl
      rw [hdata, hend, List.append_nil, Bool.or_false]
      exact hflushed
  | closeStdin =>
    exact .released rfl ((empties_closeStdin ..).imp fun _ hcall => hcall.not_writes)
      (Or.inr (Or.inl rfl))
  | read stream =>
    obtain ⟨hstdin, hpending, hflag⟩ := input_readStream host.logged child stream w
    refine .alone hstdin hpending hflag ?_ (aside_of_sparesInput host child w trivial)
    exact (child.readStream_spec stream host w).1.imp fun _ hcall => hcall.empties.not_writes
  | tryWait =>
    obtain ⟨hobserved, hw⟩ := observed_tryWait host child w
    exact hobserved.handles hw rfl (aside_of_sparesInput host child w trivial)
  | wait =>
    obtain ⟨hobserved, hw⟩ := observed_wait host child w
    exact hobserved.handles hw rfl (aside_of_sparesInput host child w trivial)
  | waitForIo milliseconds =>
    refine .alone rfl rfl rfl ?_ (aside_of_sparesInput host child w trivial)
    exact (waits_waitForIo host milliseconds child w).imp fun _ hcall => hcall.not_writes
  | terminate force =>
    exact .alone rfl rfl rfl (quiet_signal ..) (aside_of_sparesInput host child w trivial)
  | terminateWithTimeout fuel grace =>
    obtain ⟨hobserved, hw⟩ := observed_terminateWithTimeout host child fuel grace w
    exact hobserved.handles hw rfl (aside_of_sparesInput host child w trivial)
  | elsewhere change =>
    exact .alone rfl rfl rfl (.of_eq _ rfl) (aside_of_sparesInput host child w trivial)

end Child

namespace Queue

variable {host : Host ω} {d : Descriptor} {past : List (Deed ω)} {child : Child} {w : ω × Log}

/-- One operation keeps the order. -/
theorem perform (h : Queue d past child w.2) (hsound : child.Sound) (operation : Operation ω) :
    Queue d (past ++ [child.deed host w operation]) (child.perform host w operation).2.1
      (child.perform host w operation).2.2.2 := by
  cases child.handles_perform host hsound w operation with
  | alone hstdin hpending hflag hw haside => exact h.keep hstdin hpending hflag hw haside
  | released hd hw hwhy => exact h.release hd hw
  | @fed d' calls result hd hlog hflushed hoperation hanswer =>
    have hpipe : some d' = some d := by
      rcases h.stdin with hnone | hsome
      · cases hd.symm.trans hnone
      · exact hd.symm.trans hsome
    obtain rfl : d' = d := Option.some.inj hpipe
    exact h.feed hd hlog hflushed hoperation hanswer

/-- Any number of operations keep the order. -/
theorem deal (h : Queue d past child w.2) (hsound : child.Sound)
    (operations : List (Operation ω)) :
    let done := child.deal host w operations
    Queue d (past ++ done.past) done.child done.machine.2 := by
  induction operations generalizing past child w with
  | nil =>
    simp only [Child.deal, List.append_nil]
    exact h
  | cons operation rest ih =>
    obtain ⟨hsound', -⟩ := Child.Evolves.perform host child w operation hsound
    have hnext := ih (h.perform hsound operation) hsound'
    simp only [List.append_assoc] at hnext
    exact hnext

/-- When the input is closed neither by the caller nor by the exit nor by a failure, its end comes
in its turn. -/
theorem concluded (h : Queue d past child w.2) (hsound : child.Sound) (hd : child.stdin = some d)
    {operation : Operation ω} (hclosed : (child.perform host w operation).2.1.stdin = none)
    (hoperation : operation ≠ .closeStdin)
    (hexited : (child.perform host w operation).2.1.exited = false)
    (hanswer : ∀ cause, (child.perform host w operation).1 ≠ .fed (.error cause)) :
    Concluded d (past ++ [child.deed host w operation])
      (child.pendingInput ++ (child.deed host w operation).data) w.2
      (child.perform host w operation).2.2.2 := by
  cases child.handles_perform host hsound w operation with
  | alone hstdin => cases hd.symm.trans (hstdin.symm.trans hclosed)
  | released _ _ hwhy =>
    rcases hwhy with hwhy | hwhy | hwhy
    · cases hd.symm.trans hwhy
    · exact absurd hwhy hoperation
    · cases hexited.symm.trans hwhy
  | @fed d' calls result hd' hlog hflushed _ hfed =>
    obtain rfl : d' = d := Option.some.inj (hd'.symm.trans hd)
    cases result with
    | error cause => exact absurd hfed (hanswer cause)
    | ok =>
      obtain ⟨hflag, writes, hfeeding, rfl⟩ := hflushed.closed hd hclosed
      have hended : endAsked (past ++ [child.deed host w operation]) = true := by
        rw [endAsked_append, endAsked_singleton, ← h.flag hd]
        exact hflag
      have htook : accepted (some d') (writes ++ [.close d']) =
          child.pendingInput ++ (child.deed host w operation).data := by
        rw [accepted_append, hfeeding.accepted_eq]
        exact List.append_nil _
      refine ⟨hended, ?_, writes, hfeeding, hlog⟩
      rw [hlog, accepted_append, htook, ← List.append_assoc, h.whole hd, offered_append,
        offered_singleton]

end Queue

/-- Once the input is closed, nothing is written. -/
theorem Child.quiet_deal (host : Host ω) {child : Child} (hsound : child.Sound)
    (hd : child.stdin = none) (w : ω × Log) (operations : List (Operation ω)) :
    Only (fun call => ¬call.Writes) w (child.deal host w operations).machine := by
  induction operations generalizing child w with
  | nil => exact .refl _ _
  | cons operation rest ih =>
    obtain ⟨hsound', hlater⟩ := Child.Evolves.perform host child w operation hsound
    have hd' : (child.perform host w operation).2.1.stdin = none := by
      rcases hlater.stdin with hnone | hsame
      · exact hnone
      · exact hsame.trans hd
    have hfirst : Only (fun call => ¬call.Writes) w (child.perform host w operation).2.2 := by
      cases child.handles_perform host hsound w operation with
      | alone _ _ _ hw => exact hw
      | released _ hw => exact hw
      | fed hsome => cases hd.symm.trans hsome
    exact hfirst.trans (ih hsound' hd' _)

/-- **The input of a child is delivered in order.**  Whatever is done with a child that has a pipe
for its input, and whatever the pipe answers:

* while the pipe is open, what it took and then what waits is what was offered; and at any time what
  it took is the front of that;
* once the end was asked for, the pipe is open only while something waits, and if neither the
  caller nor the exit nor a failure closes it, it is closed by the writes that empty the queue;
* after a failure, and after the input is closed in any way, nothing is written. -/
theorem Child.input_in_order {host : Host ω} {executable : String} {args : List String}
    {options : LaunchOptions} {w : ω} {w' : ω × Log} {child : Child} {d : Descriptor}
    (hspawn : spawn host.logged executable args options (w, []) = (.ok child, w'))
    (hd : child.stdin = some d) (operations : List (Operation ω)) :
    let done := child.deal host w' operations
    Queue d done.past done.child done.machine.2 ∧
      (done.child.stdin = some d → endAsked done.past → done.child.pendingInput ≠ []) ∧
      (∀ operation,
        let deed := done.child.deed host done.machine operation
        let after := done.child.perform host done.machine operation
        done.child.stdin = some d → after.2.1.stdin = none →
          operation = .closeStdin ∨ after.2.1.exited = true ∨
            (∃ cause, after.1 = .fed (.error cause)) ∨
            Concluded d (done.past ++ [deed]) (done.child.pendingInput ++ deed.data)
              done.machine.2 after.2.2.2) ∧
      (done.child.stdin = none → ∀ more,
        Only (fun call => ¬call.Writes) done.machine
          (done.child.deal host done.machine more).machine) := by
  intro done
  have hfirst : Queue d ([] : List (Deed ω)) child w'.2 := by
    obtain ⟨request, launched, hstart, rfl⟩ := spawn_ok hspawn
    have haccepted : accepted (some d) w'.2 = [] := by
      rcases log_of_spawn hspawn with hlog | ⟨_, _, hlog⟩ <;> rw [hlog] <;> rfl
    refine ⟨Or.inr hd, ?_, ?_, fun _ => rfl, by simp⟩
    · intro _
      rw [haccepted]
      rfl
    · rw [haccepted]
      exact List.prefix_refl _
  have hsound := Child.Sound.spawn hspawn
  have hqueue : Queue d done.past done.child done.machine.2 := hfirst.deal hsound operations
  obtain ⟨hsound', -⟩ := Child.Evolves.deal host child w' operations hsound
  refine ⟨hqueue, ?_, ?_, ?_⟩
  · intro hopen hend
    exact hsound'.deferred ((hqueue.flag hopen).trans hend)
  · intro operation deed after hopen hclosed
    by_cases hoperation : operation = .closeStdin
    · exact Or.inl hoperation
    cases hexited : after.2.1.exited with
    | true => exact Or.inr (Or.inl rfl)
    | false =>
      by_cases hanswer : ∃ cause, after.1 = .fed (.error cause)
      · exact Or.inr (Or.inr (Or.inl hanswer))
      · exact Or.inr (Or.inr (Or.inr (hqueue.concluded hsound' hopen hclosed hoperation hexited
          (not_exists.mp hanswer))))
  · intro hclosed more
    exact Child.quiet_deal host hsound' hclosed done.machine more

/-- What is done with a program whose pipe takes two bytes of three and is full then, and after an
interruption takes what it is offered. -/
def Child.dealFed : Dealings Lone :=
  let (_, w) := spawn Host.lone.logged "/bin/cat" [] {}
    ({ answers := [.wrote 2, .wouldBlock, .interrupted, .wrote 9] }, [])
  { pid := 1, stdin := some 0, stdout := some 1, stderr := some 2, leadsGroup := true : Child }.deal
    Host.lone w [.write [1, 2, 3] false]

/-- The third byte waits for the next write, which asks for the end. -/
theorem Child.input_in_order_cat :
    Child.dealFed.child.pendingInput = [3] ∧
      Queue 0 Child.dealFed.past Child.dealFed.child Child.dealFed.machine.2 ∧
      Concluded 0
        (Child.dealFed.past ++
          [Child.dealFed.child.deed Host.lone Child.dealFed.machine (.write [4] true)])
        [3, 4] Child.dealFed.machine.2
        (Child.dealFed.child.perform Host.lone Child.dealFed.machine (.write [4] true)).2.2.2 := by
  have hspawn : (spawn Host.lone.logged "/bin/cat" [] {}
      ({ answers := [.wrote 2, .wouldBlock, .interrupted, .wrote 9] }, [])).1 = .ok
        { pid := 1, stdin := some 0, stdout := some 1, stderr := some 2, leadsGroup := true } := by
    cbv
  have hpending : Child.dealFed.child.pendingInput = [3] := by cbv
  have hopen : Child.dealFed.child.stdin = some 0 := by cbv
  have hafter :
      let after := Child.dealFed.child.perform Host.lone Child.dealFed.machine (.write [4] true)
      after.2.1.stdin = none ∧ after.2.1.exited = false := by cbv
  have hanswer :
      (Child.dealFed.child.perform Host.lone Child.dealFed.machine (.write [4] true)).1 =
        .fed (.ok ()) := by cbv
  have hdata :
      (Child.dealFed.child.deed Host.lone Child.dealFed.machine (.write [4] true)).data = [4] := by
    cbv
  obtain ⟨hqueue, -, hclosing, -⟩ := Child.input_in_order (Prod.ext hspawn rfl) rfl
    [.write [1, 2, 3] false]
  refine ⟨hpending, hqueue, ?_⟩
  rcases hclosing (.write [4] true) hopen hafter.1 with hclose | hexited | ⟨cause, herror⟩ | hended
  · cases hclose
  · cases hafter.2.symm.trans hexited
  · cases hanswer.symm.trans herror
  · have hended : Concluded 0 _ (Child.dealFed.child.pendingInput ++
        (Child.dealFed.child.deed Host.lone Child.dealFed.machine (.write [4] true)).data) _ _ :=
      hended
    rw [hpending, hdata] at hended
    exact hended

end Chaperone
