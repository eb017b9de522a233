import Chaperone.Proofs.Child.Sound

/-!
# Whom signals reach

The number of a process may be given to another one as soon as somebody has taken note of its end.
So a signal is sent to a child only as long as no answer has reported its end.

`Tracks child own` says this of the calls `own` that were made for a child, and that the child knows
of the end what the answers have reported.  `Minds` is what every operation does: whatever calls the
child had tracked before, it tracks them together with the calls of the operation.
-/

namespace Chaperone

variable {ω : Type}

def Call.Idle : Call → Prop
  | .kill _ _ _ | .reap _ _ | .await _ _ => False
  | _ => True

/-- Signals are sent to this target only, and none after an answer has reported an end. -/
def Spares (target : Target) (log : Log) : Prop :=
  ∀ before t signal result, before ++ [.kill t signal result] <+: log →
    t = target ∧ reported before = []

/-- The calls that were made for a child from its start on, and what the child knows of them. -/
structure Tracks (child : Child) (own : Log) : Prop where
  start : ∃ request launched rest, own = .start request (.ok launched) :: rest ∧
    launched.pid = child.pid ∧ request.newSession = child.leadsGroup
  spares : Spares child.target own
  reported : reported own = child.status.toList
  about : ∀ question ∈ asked own, question.1 = child.pid

structure Minds (m m' : Child × ω × Log) : Prop where
  pid : m'.1.pid = m.1.pid
  leadsGroup : m'.1.leadsGroup = m.1.leadsGroup
  calls : ∃ calls, m'.2.2 = m.2.2 ++ calls ∧
    ∀ own, Tracks m.1 own → Tracks m'.1 (own ++ calls)

theorem Call.Idle.question? {call : Call} (h : call.Idle) : call.question? = none := by
  cases call with
  | reap | await => exact h.elim
  | _ => rfl

theorem Call.Empties.idle {call : Call} (h : call.Empties) : call.Idle := by
  cases call with
  | read | close => trivial
  | _ => exact h.elim

theorem Call.Waits.idle {call : Call} (h : call.Waits) : call.Idle := by
  cases call with
  | watch | sleep | now => trivial
  | _ => exact h.elim

namespace Spares

variable {target : Target} {own calls : Log}

/-- Other calls may follow at any time. -/
theorem append (h : Spares target own)
    (hcalls : ∀ call ∈ calls, ∀ t signal result, call ≠ .kill t signal result) :
    Spares target (own ++ calls) := by
  intro before t signal result hprefix
  rcases List.prefix_or_prefix_of_prefix hprefix (List.prefix_append own calls) with hown | hown
  · exact h before t signal result hown
  · obtain ⟨rest, hrest⟩ := hown
    rw [← hrest] at hprefix
    have hcalled : rest <+: calls := (List.prefix_append_right_inj own).mp hprefix
    rcases List.eq_nil_or_concat rest with rfl | ⟨first, call, rfl⟩
    · rw [List.append_nil] at hrest
      exact h before t signal result (hrest ▸ List.prefix_refl _)
    · rw [List.concat_eq_append] at hcalled hrest
      rw [← List.append_assoc] at hrest
      obtain ⟨-, hlast⟩ := List.append_inj' hrest rfl
      obtain rfl := List.singleton_inj.mp hlast
      have hmem := hcalled.subset (List.mem_append_right first (List.mem_singleton_self _))
      exact absurd rfl (hcalls _ hmem t signal result)

/-- A signal may follow when no end was reported. -/
theorem kill (h : Spares target own) (hreported : reported own = []) (signal : Signal)
    (result : Except Errno Unit) : Spares target (own ++ [.kill target signal result]) := by
  intro before t s r hprefix
  rcases List.prefix_concat_iff.mp hprefix with hwhole | hown
  · obtain ⟨rfl, hlast⟩ := List.append_inj' hwhole rfl
    cases hlast
    exact ⟨rfl, hreported⟩
  · exact h before t s r hown

end Spares

namespace Tracks

variable {child child' : Child} {own calls : Log}

/-- Calls that do not concern the end of the child. -/
theorem idle (h : Tracks child own) (hpid : child'.pid = child.pid)
    (hgroup : child'.leadsGroup = child.leadsGroup) (hstatus : child'.status = child.status)
    (hcalls : ∀ call ∈ calls, call.Idle) : Tracks child' (own ++ calls) := by
  have hasked : asked (own ++ calls) = asked own := by
    have hnil : asked calls = [] :=
      List.filterMap_eq_nil_iff.mpr fun call hcall => (hcalls call hcall).question?
    rw [asked_append, hnil, List.append_nil]
  have htarget : child'.target = child.target := by
    rw [Child.target, hgroup, hpid, Child.target]
  obtain ⟨request, launched, rest, hown, hlaunched, hsession⟩ := h.start
  refine ⟨⟨request, launched, rest ++ calls, ?_, hlaunched.trans hpid.symm,
    hsession.trans hgroup.symm⟩, ?_, ?_, ?_⟩
  · rw [hown, List.cons_append]
  · rw [htarget]
    refine h.spares.append ?_
    rintro call hcall t signal result rfl
    exact hcalls _ hcall
  · rw [reported_of_asked hasked, h.reported, hstatus]
  · rw [hasked, hpid]
    exact h.about

/-- A signal before the exit is seen. -/
theorem kill (h : Tracks child own) (hstatus : child.status = none) (signal : Signal)
    (result : Except Errno Unit) : Tracks child (own ++ [.kill child.target signal result]) := by
  have hasked : asked (own ++ [.kill child.target signal result]) = asked own := by
    rw [asked_append]
    exact List.append_nil _
  have hnone : Chaperone.reported own = [] := by rw [h.reported, hstatus]; rfl
  obtain ⟨request, launched, rest, hown, hlaunched⟩ := h.start
  refine ⟨⟨request, launched, rest ++ [.kill child.target signal result], ?_, hlaunched⟩,
    h.spares.kill hnone signal result, ?_, ?_⟩
  · rw [hown, List.cons_append]
  · rw [reported_of_asked hasked]
    exact h.reported
  · rw [hasked]
    exact h.about

/-- A question about the child, before an end was reported.  The child takes note of the answer. -/
theorem ask (h : Tracks child own) (hstatus : child.status = none) {call : Call}
    {answer : ReapResult} (hquestion : call.question? = some (child.pid, answer))
    (hpid : child'.pid = child.pid) (hgroup : child'.leadsGroup = child.leadsGroup)
    (hanswer : child'.status = answer.status?) : Tracks child' (own ++ [call]) := by
  have hasked : asked (own ++ [call]) = asked own ++ [(child.pid, answer)] := by
    rw [asked_append, asked, asked]
    simp [hquestion]
  have htarget : child'.target = child.target := by
    rw [Child.target, hgroup, hpid, Child.target]
  obtain ⟨request, launched, rest, hown, hlaunched, hsession⟩ := h.start
  refine ⟨⟨request, launched, rest ++ [call], ?_, hlaunched.trans hpid.symm,
    hsession.trans hgroup.symm⟩, ?_, ?_, ?_⟩
  · rw [hown, List.cons_append]
  · rw [htarget]
    refine h.spares.append ?_
    intro other hother t signal result hkill
    rw [List.mem_singleton.mp hother] at hkill
    rw [hkill] at hquestion
    cases hquestion
  · rw [reported_append_of_asked hasked, h.reported, hstatus, hanswer]
    rfl
  · intro question hmem
    rw [hasked] at hmem
    rw [hpid]
    rcases List.mem_append.mp hmem with hmem | hmem
    · exact h.about question hmem
    · rw [List.mem_singleton.mp hmem]

end Tracks

namespace Minds

variable {m m' m'' : Child × ω × Log} {child child' : Child} {w w' : ω × Log}

theorem refl (m : Child × ω × Log) : Minds m m :=
  ⟨rfl, rfl, [], (List.append_nil _).symm, fun own h => by rwa [List.append_nil]⟩

theorem trans (h : Minds m m') (g : Minds m' m'') : Minds m m'' := by
  obtain ⟨hpid, hgroup, calls, hlog, htracks⟩ := h
  obtain ⟨hpid', hgroup', more, hlog', htracks'⟩ := g
  refine ⟨hpid'.trans hpid, hgroup'.trans hgroup, calls ++ more, ?_, ?_⟩
  · rw [hlog', hlog, List.append_assoc]
  · intro own hown
    rw [← List.append_assoc]
    exact htracks' _ (htracks own hown)

theorem idle (hw : Only Call.Idle w w') (hpid : child'.pid = child.pid)
    (hgroup : child'.leadsGroup = child.leadsGroup) (hstatus : child'.status = child.status) :
    Minds (child, w) (child', w') := by
  obtain ⟨calls, hlog, hcalls⟩ := hw
  exact ⟨hpid, hgroup, calls, hlog, fun own h => h.idle hpid hgroup hstatus hcalls⟩

/-- Whatever is done with the input. -/
theorem input (hw : Only Call.Idle w w') (hchild : child'.withoutInput = child.withoutInput) :
    Minds (child, w) (child', w') :=
  idle hw (Child.pid_of_withoutInput hchild) (congrArg (·.leadsGroup) hchild)
    (Child.status_of_withoutInput hchild)

theorem ask {call : Call} {answer : ReapResult} (hstatus : child.status = none)
    (hlog : w'.2 = w.2 ++ [call]) (hquestion : call.question? = some (child.pid, answer))
    (hpid : child'.pid = child.pid) (hgroup : child'.leadsGroup = child.leadsGroup)
    (hanswer : child'.status = answer.status?) : Minds (child, w) (child', w') :=
  ⟨hpid, hgroup, [call], hlog, fun _ h => h.ask hstatus hquestion hpid hgroup hanswer⟩

end Minds

/-! ### What each operation does -/

theorem Feeding.idle {d : Descriptor} {queue left : List UInt8} {calls : Log}
    (h : Feeding d queue calls left) : ∀ call ∈ calls, call.Idle := by
  induction h with
  | stop queue =>
    intro call hcall
    cases hcall
  | write hne h ih =>
    refine List.forall_mem_cons.mpr ⟨trivial, ih⟩

theorem Flushed.idle {child child' : Child} {d : Descriptor} {calls : Log}
    {result : Except WriteError Unit} (h : Flushed child d calls result child') :
    ∀ call ∈ calls, call.Idle := by
  have hclose (writes : Log) (hwrites : ∀ call ∈ writes, call.Idle) :
      ∀ call ∈ writes ++ [.close d], call.Idle := by
    intro call hcall
    rcases List.mem_append.mp hcall with hcall | hcall
    · exact hwrites call hcall
    · rw [List.mem_singleton.mp hcall]
      trivial
  cases h with
  | waits h | empties h => exact h.idle
  | ends h | fails h => exact hclose _ h.idle

namespace Child

variable (host : Host ω) (child : Child) (w : ω × Log)

theorem idle_closeStdin : Only Call.Idle w (child.closeStdin host.logged w).2 :=
  (empties_closeStdin host child w).imp fun _ h => h.idle

theorem idle_flushStdin : Only Call.Idle w (child.flushStdin host.logged w).2.2 := by
  cases hd : child.stdin with
  | some d =>
    obtain ⟨calls, hlog, hflushed⟩ := flushStdin_spec host child w hd
    exact ⟨calls, hlog, hflushed.idle⟩
  | none =>
    rw [flushStdin]
    split
    · split
      · exact idle_closeStdin host child w
      · exact .refl _ _
    · simp only [hd]
      exact .refl _ _

theorem idle_write (data : List UInt8) (close : Bool) :
    Only Call.Idle w (child.write host.logged data close w).2.2 := by
  simp only [write]
  split
  · exact .refl _ _
  · exact idle_flushStdin host _ w

theorem minds_closeStdin : Minds (child, w) (child.closeStdin host.logged w) :=
  .input (idle_closeStdin host child w) rfl

theorem minds_flushStdin : Minds (child, w) (child.flushStdin host.logged w).2 :=
  .input (idle_flushStdin host child w) (withoutInput_flushStdin ..)

theorem minds_write (data : List UInt8) (close : Bool) :
    Minds (child, w) (child.write host.logged data close w).2 :=
  .input (idle_write host child w data close) (withoutInput_write ..)

theorem minds_readStream (stream : OutputStream) :
    Minds (child, w) (child.readStream host.logged stream w).2.2 :=
  .idle ((child.readStream_spec stream host w).1.imp fun _ h => h.empties.idle)
    (pid_readStream ..) (leadsGroup_readStream ..) (status_readStream ..)

theorem minds_waitForIo (milliseconds : Nat) :
    Minds (child, w) (child, (child.waitForIo host.logged milliseconds w).2) :=
  .idle ((waits_waitForIo host milliseconds child w).imp fun _ h => h.idle) rfl rfl rfl

/-- A signal is sent only as long as the exit has not been seen. -/
theorem minds_signal (signal : Signal) :
    Minds (child, w) (child, (child.signal host.logged signal w).2) := by
  obtain ⟨-, h⟩ | ⟨hexited, result, hlog⟩ := signal_cases host child w signal
  · rw [h]
    exact .refl _
  · have hstatus : child.status = none := by simpa [exited] using hexited
    exact ⟨rfl, rfl, [.kill child.target signal result], hlog,
      fun own hown => hown.kill hstatus signal result⟩

/-- The exit is recorded when an answer has reported it. -/
theorem minds_recordExit {call : Call} {answer : ReapResult} {w₁ : ω × Log} {status : ExitStatus}
    (hstatus : child.status = none) (hlog : w₁.2 = w.2 ++ [call])
    (hquestion : call.question? = some (child.pid, answer))
    (hanswer : answer.status? = some status) :
    Minds (child, w) (child.recordExit host.logged status w₁) := by
  -- The child as it is once it knows the answer.
  have hasked : Minds (child, w) ({ child with status := some status }, w₁) :=
    .ask hstatus hlog hquestion rfl rfl hanswer.symm
  obtain ⟨hrecorded, hpid, -⟩ := child.recordExit_child host.logged w₁ status
  exact hasked.trans (.idle ((empties_recordExit host status child w₁).imp fun _ h => h.idle) hpid
    (leadsGroup_recordExit ..) hrecorded)

theorem minds_tryWait : Minds (child, w) (child.tryWait host.logged w).2 := by
  have hlog : (host.logged.reap child.pid w).2.2 =
      w.2 ++ [.reap child.pid (host.logged.reap child.pid w).1] := rfl
  obtain ⟨status, -, h⟩ | ⟨status, hstatus, hanswer, h⟩ | ⟨hstatus, hanswer, h⟩ :=
    child.tryWait_cases host.logged w
  · rw [h]
    exact .refl _
  · rw [h]
    exact minds_recordExit host child w hstatus hlog rfl hanswer
  · rw [h]
    exact .ask hstatus hlog rfl rfl rfl (hstatus.trans hanswer.symm)

theorem minds_wait : Minds (child, w) (child.wait host.logged w).2 := by
  have hlog : (host.logged.await child.pid w).2.2 =
      w.2 ++ [.await child.pid (host.logged.await child.pid w).1] := rfl
  obtain ⟨status, -, h⟩ | ⟨status, hstatus, hanswer, h⟩ | ⟨hstatus, hanswer, cause, h⟩ :=
    child.wait_cases host.logged w
  · rw [h]
    exact .refl _
  · rw [h]
    exact minds_recordExit host child w hstatus hlog rfl hanswer
  · rw [h]
    exact .ask hstatus hlog rfl rfl rfl (hstatus.trans hanswer.symm)

theorem minds_terminateWithTimeout (fuel grace : Nat) :
    Minds (child, w) (child.terminateWithTimeout host.logged fuel grace w).2 :=
  terminateWithTimeout_rel host.logged Minds.refl (fun h g => h.trans g)
    (fun child signal w => minds_signal host child w signal) (minds_tryWait host)
    (fun _ _ => .idle (.one (.now _) trivial rfl) rfl rfl rfl)
    (fun _ microseconds _ => .idle (.one (.sleep microseconds) trivial rfl) rfl rfl rfl)
    fuel grace child w

theorem minds_perform (operation : Operation ω) :
    Minds (child, w) (child.perform host w operation).2 := by
  cases operation with
  | write data close => exact minds_write host child w data close
  | flush => exact minds_flushStdin host child w
  | closeStdin => exact minds_closeStdin host child w
  | read stream => exact minds_readStream host child w stream
  | tryWait => exact minds_tryWait host child w
  | wait => exact minds_wait host child w
  | waitForIo milliseconds => exact minds_waitForIo host child w milliseconds
  | terminate force => exact minds_signal host child w (.ofForce force)
  | terminateWithTimeout fuel grace => exact minds_terminateWithTimeout host child w fuel grace
  | elsewhere change => exact .idle (.of_eq _ rfl) rfl rfl rfl

/-- Whatever is done with a child, its calls go on as they should. -/
theorem minds_deal (operations : List (Operation ω)) :
    let done := child.deal host w operations
    Minds (child, w) (done.child, done.machine) := by
  induction operations generalizing child w with
  | nil => exact .refl _
  | cons operation rest ih => exact (minds_perform host child w operation).trans (ih _ _)

end Child

/-! ### The start -/

theorem idle_of_spawn {host : Host ω} {executable : String} {args : List String}
    {options : LaunchOptions} {w w' : ω × Log} {result : Except SpawnError Child}
    (h : spawn host.logged executable args options w = (result, w')) : Only Call.Idle w w' := by
  rcases log_of_spawn h with hlog | ⟨request, answer, hlog⟩
  · exact .of_eq _ hlog
  · exact .one (.start request answer) trivial hlog

/-- A child that was started has its start on record. -/
theorem Tracks.spawn {host : Host ω} {executable : String} {args : List String}
    {options : LaunchOptions} {w w' : ω × Log} {child : Child}
    (h : Chaperone.spawn host.logged executable args options w = (.ok child, w')) :
    child.leadsGroup = options.detachProcessGroup ∧
      ∃ request launched, w'.2 = w.2 ++ [.start request (.ok launched)] ∧
        Tracks child [.start request (.ok launched)] := by
  obtain ⟨request, launched, hstart, hsession, rfl⟩ := request_of_spawn h
  obtain ⟨hanswer, rfl⟩ := Prod.mk.inj hstart
  refine ⟨rfl, request, launched, ?_, ⟨request, launched, [], rfl, rfl, hsession⟩, ?_, rfl, nofun⟩
  · exact congrArg (fun answer => w.2 ++ [Call.start request answer]) hanswer
  · intro before t signal result hprefix
    have hlength := hprefix.length_le
    rw [List.length_append] at hlength
    obtain rfl : before = [] := List.eq_nil_of_length_eq_zero (by simpa using hlength)
    cases List.cons_prefix_cons.mp hprefix |>.1

end Chaperone
