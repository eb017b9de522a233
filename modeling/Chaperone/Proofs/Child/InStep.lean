import Chaperone.Proofs.Child.Hom
import Chaperone.Proofs.Child.Exit

/-!
# Machines that give the same for the calls that are made

A run knows its machine only by what the calls give that it makes.  So two machines that give the
same for these calls (`Shows`) go through the run in the same way, whatever they would have given
for others.

Which calls are made is known when the run is over.  So every lemma here goes on from a moment at
which both machines have come equally far in them (`InStep`), and supposes that the calls that
follow are the next ones.
-/

namespace Chaperone

variable {ω ω' : Type}

def Call.redo (host : Host ω) (w : ω) : Call → Call × ω
  | .read d count _ =>
    let (result, w) := host.read d count w
    (.read d count result, w)
  | .write d bytes _ =>
    let (result, w) := host.write d bytes w
    (.write d bytes result, w)
  | .close d => (.close d, host.close d w)
  | .reap pid _ =>
    let (result, w) := host.reap pid w
    (.reap pid result, w)
  | .await pid _ =>
    let (result, w) := host.await pid w
    (.await pid result, w)
  | .kill target signal _ =>
    let (result, w) := host.kill target signal w
    (.kill target signal result, w)
  | .watch pipes milliseconds _ =>
    let (result, w) := host.watch pipes milliseconds w
    (.watch pipes milliseconds result, w)
  | .sleep microseconds => (.sleep microseconds, host.sleep microseconds w)
  | .now _ =>
    let (time, w) := host.now w
    (.now time, w)
  | .start request _ =>
    let (result, w) := host.start request w
    (.start request result, w)
  | .readFile path _ =>
    let (result, w) := host.readFile path w
    (.readFile path result, w)

@[simp] theorem Call.redo_redo (host : Host ω) (host' : Host ω') (call : Call) (w : ω) (v : ω') :
    (call.redo host w).1.redo host' v = call.redo host' v := by cases call <;> rfl

/-- Two machines give the same for calls that are made one after the other, and name the same time
of day all along. -/
def Shows (host : Host ω) (host' : Host ω') : Log → ω → ω' → Prop
  | [], w, v => host.wallClock w = host'.wallClock v
  | call :: rest, w, v =>
    host.wallClock w = host'.wallClock v ∧ (call.redo host w).1 = (call.redo host' v).1 ∧
      Shows host host' rest (call.redo host w).2 (call.redo host' v).2

/-- A machine shows what it shows itself. -/
theorem Shows.refl (host : Host ω) (calls : Log) (w : ω) : Shows host host calls w w := by
  induction calls generalizing w with
  | nil => rfl
  | cons call rest ih => exact ⟨rfl, rfl, ih _⟩

theorem Only.grows {P : Call → Prop} {w w' w'' : ω × Log} (h : Only P w w') (hw : w' = w'') :
    w.2 <+: w''.2 := by
  obtain ⟨calls, hlog, -⟩ := h
  exact ⟨calls, hw ▸ hlog.symm⟩

/-- Two machines have made the same calls, which are the first of `all`, and will give the same for
the others. -/
structure InStep (host : Host ω) (host' : Host ω') (all : Log) (w : ω × Log) (v : ω' × Log) :
    Prop where
  log : v.2 = w.2
  rest : ∃ rest, all = w.2 ++ rest ∧ Shows host host' rest w.1 v.1

section

variable {host : Host ω} {host' : Host ω'} {all : Log} {w w' : ω × Log} {v : ω' × Log}

/-! ### One call -/

namespace InStep

theorem wallClock (h : InStep host host' all w v) :
    host'.logged.wallClock v = host.logged.wallClock w := by
  obtain ⟨-, rest, -, hrest⟩ := h
  cases rest with
  | nil => exact hrest.symm
  | cons call rest => exact hrest.1.symm

/-- One call that is the next one. -/
theorem step (h : InStep host host' all w v) (call : Call)
    (hnext : w.2 ++ [(call.redo host w.1).1] <+: all) :
    (call.redo host' v.1).1 = (call.redo host w.1).1 ∧
      InStep host host' all ((call.redo host w.1).2, w.2 ++ [(call.redo host w.1).1])
        ((call.redo host' v.1).2, v.2 ++ [(call.redo host' v.1).1]) := by
  obtain ⟨hlog, rest, hall, hrest⟩ := h
  obtain ⟨more, hmore⟩ := hnext
  obtain rfl : rest = (call.redo host w.1).1 :: more := by
    rw [hall, List.append_assoc] at hmore
    exact (List.append_cancel_left hmore).symm
  obtain ⟨-, hsame, hshown⟩ := hrest
  rw [Call.redo_redo, Call.redo_redo] at hsame hshown
  refine ⟨hsame.symm, ?_, more, hmore.symm, hshown⟩
  rw [hlog, hsame]

theorem read (h : InStep host host' all w v) {d : Descriptor} {count : Nat} {result : ReadResult}
    (hr : host.logged.read d count w = (result, w')) (hlast : w'.2 <+: all) :
    ∃ v', host'.logged.read d count v = (result, v') ∧ InStep host host' all w' v' := by
  obtain ⟨rfl, rfl⟩ := Prod.mk.inj hr
  obtain ⟨hsame, hstep⟩ := h.step (.read d count .wouldBlock) hlast
  exact ⟨_, Prod.ext (Call.read.inj hsame).2.2 rfl, hstep⟩

theorem write (h : InStep host host' all w v) {d : Descriptor} {bytes : List UInt8}
    {result : WriteResult} (hw : host.logged.write d bytes w = (result, w'))
    (hlast : w'.2 <+: all) :
    ∃ v', host'.logged.write d bytes v = (result, v') ∧ InStep host host' all w' v' := by
  obtain ⟨rfl, rfl⟩ := Prod.mk.inj hw
  obtain ⟨hsame, hstep⟩ := h.step (.write d bytes .wouldBlock) hlast
  exact ⟨_, Prod.ext (Call.write.inj hsame).2.2 rfl, hstep⟩

theorem close (h : InStep host host' all w v) {d : Descriptor}
    (hlast : (host.logged.close d w).2 <+: all) :
    InStep host host' all (host.logged.close d w) (host'.logged.close d v) :=
  (h.step (.close d) hlast).2

theorem reap (h : InStep host host' all w v) {pid : Pid} {result : ReapResult}
    (hr : host.logged.reap pid w = (result, w')) (hlast : w'.2 <+: all) :
    ∃ v', host'.logged.reap pid v = (result, v') ∧ InStep host host' all w' v' := by
  obtain ⟨rfl, rfl⟩ := Prod.mk.inj hr
  obtain ⟨hsame, hstep⟩ := h.step (.reap pid .running) hlast
  exact ⟨_, Prod.ext (Call.reap.inj hsame).2 rfl, hstep⟩

theorem kill (h : InStep host host' all w v) {target : Target} {signal : Signal}
    {result : Except Errno Unit} (hk : host.logged.kill target signal w = (result, w'))
    (hlast : w'.2 <+: all) :
    ∃ v', host'.logged.kill target signal v = (result, v') ∧ InStep host host' all w' v' := by
  obtain ⟨rfl, rfl⟩ := Prod.mk.inj hk
  obtain ⟨hsame, hstep⟩ := h.step (.kill target signal (.ok ())) hlast
  exact ⟨_, Prod.ext (Call.kill.inj hsame).2.2 rfl, hstep⟩

end InStep

/-! ### Input -/

namespace Child

variable {child child' : Child}

theorem closeStdin_inStep (h : InStep host host' all w v)
    (hr : child.closeStdin host.logged w = (child', w')) (hlast : w'.2 <+: all) :
    ∃ v', child.closeStdin host'.logged v = (child', v') ∧ InStep host host' all w' v' := by
  simp only [closeStdin] at hr ⊢
  obtain ⟨rfl, rfl⟩ := Prod.mk.inj hr
  cases hd : child.stdin with
  | none => exact ⟨v, rfl, h⟩
  | some d =>
    rw [hd] at hlast
    exact ⟨_, rfl, h.close hlast⟩

theorem failStdin_inStep (h : InStep host host' all w v) {cause : WriteError}
    {result : Except WriteError Unit}
    (hr : child.failStdin host.logged cause w = (result, child', w')) (hlast : w'.2 <+: all) :
    ∃ v', child.failStdin host'.logged cause v = (result, child', v') ∧
      InStep host host' all w' v' := by
  simp only [failStdin, Prod.mk.injEq] at hr ⊢
  obtain ⟨rfl, hchild, hw⟩ := hr
  obtain ⟨v', hclose, hstep⟩ := closeStdin_inStep h (Prod.ext hchild hw) hlast
  rw [hclose]
  exact ⟨v', ⟨rfl, rfl, rfl⟩, hstep⟩

theorem flushStdin_inStep (h : InStep host host' all w v) {result : Except WriteError Unit}
    (hr : child.flushStdin host.logged w = (result, child', w')) (hlast : w'.2 <+: all) :
    ∃ v', child.flushStdin host'.logged v = (result, child', v') ∧
      InStep host host' all w' v' := by
  fun_induction flushStdin host.logged child w generalizing v with
  | case1 child w hp hclose closed w₁ hc =>
    obtain ⟨rfl, rfl, rfl⟩ := hr
    obtain ⟨v', hclosed, hstep⟩ := closeStdin_inStep h hc hlast
    rw [flushStdin_nil host'.logged hp, if_pos hclose, hclosed]
    exact ⟨v', rfl, hstep⟩
  | case2 child w hp hclose =>
    obtain ⟨rfl, rfl, rfl⟩ := hr
    rw [flushStdin_nil host'.logged hp, if_neg hclose]
    exact ⟨v, rfl, h⟩
  | case3 child w b rest hp hd =>
    obtain ⟨rfl, rfl, rfl⟩ := hr
    rw [flushStdin_none host'.logged hp hd]
    exact ⟨v, rfl, h⟩
  | case4 child w b rest hp d hd w₁ hw | case8 child w b rest hp d hd w₁ hw
  | case9 child w b rest hp d hd cause w₁ hw =>
    have hgrows := (tells_failStdin host child w₁ _).grows (congrArg (·.2.2) hr)
    obtain ⟨v₁, hwritten, hnext⟩ := h.write hw (hgrows.trans hlast)
    rw [flushStdin_cons host'.logged hp hd, hwritten]
    exact failStdin_inStep hnext hr hlast
  | case5 child w b rest hp d hd count w₁ hw ih | case7 child w b rest hp d hd w₁ hw ih =>
    have hgrows := (tells_flushStdin host _ w₁).grows (congrArg (·.2.2) hr)
    obtain ⟨v₁, hwritten, hnext⟩ := h.write hw (hgrows.trans hlast)
    rw [flushStdin_cons host'.logged hp hd, hwritten]
    exact ih hnext hr
  | case6 child w b rest hp d hd w₁ hw =>
    obtain ⟨rfl, rfl, rfl⟩ := hr
    obtain ⟨v', hwritten, hnext⟩ := h.write hw hlast
    rw [flushStdin_cons host'.logged hp hd, hwritten]
    exact ⟨v', rfl, hnext⟩

theorem write_inStep (h : InStep host host' all w v) {data : List UInt8} {close : Bool}
    {result : Except WriteError Unit}
    (hr : child.write host.logged data close w = (result, child', w')) (hlast : w'.2 <+: all) :
    ∃ v', child.write host'.logged data close v = (result, child', v') ∧
      InStep host host' all w' v' := by
  simp only [Child.write] at hr ⊢
  split at hr
  · next hclosed =>
    obtain ⟨rfl, rfl, rfl⟩ := hr
    rw [if_pos hclosed]
    exact ⟨v, rfl, h⟩
  · next hopen =>
    rw [if_neg hopen]
    exact flushStdin_inStep h hr hlast

theorem signal_inStep (h : InStep host host' all w v) {signal : Signal}
    {result : Except TerminateError Unit}
    (hr : child.signal host.logged signal w = (result, w')) (hlast : w'.2 <+: all) :
    ∃ v', child.signal host'.logged signal v = (result, v') ∧ InStep host host' all w' v' := by
  simp only [Child.signal] at hr ⊢
  split at hr
  · next hexited =>
    obtain ⟨rfl, rfl⟩ := hr
    rw [if_pos hexited]
    exact ⟨v, rfl, h⟩
  · next hexited =>
    rw [if_neg hexited]
    rcases hk : host.logged.kill child.target signal w with ⟨_ | errno, w₁⟩
    · rw [hk] at hr
      dsimp only at hr
      split at hr
      · next hgone =>
        obtain ⟨rfl, rfl⟩ := Prod.mk.inj hr
        obtain ⟨v', hkilled, hstep⟩ := h.kill hk hlast
        rw [hkilled]
        exact ⟨v', if_pos hgone, hstep⟩
      · next hgone =>
        obtain ⟨rfl, rfl⟩ := Prod.mk.inj hr
        obtain ⟨v', hkilled, hstep⟩ := h.kill hk hlast
        rw [hkilled]
        exact ⟨v', if_neg hgone, hstep⟩
    · rw [hk] at hr
      obtain ⟨rfl, rfl⟩ := Prod.mk.inj hr
      obtain ⟨v', hkilled, hstep⟩ := h.kill hk hlast
      rw [hkilled]
      exact ⟨v', rfl, hstep⟩

end Child

theorem Script.run_inStep {α : Type} (h : InStep host host' all w v) {script : Script α}
    {child child' : Child} {value : α}
    (hr : script.run host.logged child w = (value, child', w')) (hlast : w'.2 <+: all) :
    ∃ v', script.run host'.logged child v = (value, child', v') ∧
      InStep host host' all w' v' := by
  induction script generalizing child w v with
  | done a =>
    obtain ⟨rfl, rfl, rfl⟩ := hr
    exact ⟨v, rfl, h⟩
  | write text close next ih =>
    simp only [run] at hr ⊢
    rcases hwrite : child.write host.logged (Text.Utf8.encode text) close w with ⟨result, c, w₁⟩
    rw [hwrite] at hr
    have hgrows := ((next result).tells_run host c w₁).grows (congrArg (·.2.2) hr)
    obtain ⟨v₁, hwritten, hnext⟩ := Child.write_inStep h hwrite (hgrows.trans hlast)
    rw [hwritten]
    exact ih result hnext hr
  | closeStdin next ih =>
    simp only [run] at hr ⊢
    rcases hclose : child.closeStdin host.logged w with ⟨c, w₁⟩
    rw [hclose] at hr
    have hgrows := (next.tells_run host c w₁).grows (congrArg (·.2.2) hr)
    obtain ⟨v₁, hclosed, hnext⟩ := Child.closeStdin_inStep h hclose (hgrows.trans hlast)
    rw [hclosed]
    exact ih hnext hr
  | signal s next ih =>
    simp only [run] at hr ⊢
    rcases hsignal : child.signal host.logged s w with ⟨result, w₁⟩
    rw [hsignal] at hr
    have hgrows := ((next result).tells_run host child w₁).grows (congrArg (·.2.2) hr)
    obtain ⟨v₁, hsent, hnext⟩ := Child.signal_inStep h hsignal (hgrows.trans hlast)
    rw [hsent]
    exact ih result hnext hr

/-! ### Output -/

theorem drain_inStep (h : InStep host host' all w v) {d : Descriptor} {taken bytes : List UInt8}
    {count : Nat} {pause : Pause}
    (hr : drain host.logged d taken count w = (pause, bytes, w')) (hlast : w'.2 <+: all) :
    ∃ v', drain host'.logged d taken count v = (pause, bytes, v') ∧
      InStep host host' all w' v' := by
  fun_induction drain host.logged d taken count w generalizing v with
  | case1 taken count w w₁ hread | case4 taken count w w₁ hread
  | case6 taken count w cause w₁ hread =>
    obtain ⟨rfl, rfl, rfl⟩ := hr
    obtain ⟨v', hgiven, hstep⟩ := h.read hread hlast
    rw [drain_eq, hgiven]
    exact ⟨v', rfl, hstep⟩
  | case2 taken count w b chunk w₁ hread count' =>
    rename_i hfull
    obtain ⟨rfl, rfl, rfl⟩ := hr
    obtain ⟨v', hgiven, hstep⟩ := h.read hread hlast
    rw [drain_eq, hgiven]
    exact ⟨v', if_pos hfull, hstep⟩
  | case3 taken count w b chunk w₁ hread count' hfull =>
    rename_i ih
    have hgrows := (drain_spec host d _ _ w₁).1.grows (congrArg (·.2.2) hr)
    obtain ⟨v₁, hgiven, hnext⟩ := h.read hread (hgrows.trans hlast)
    rw [drain_eq, hgiven]
    dsimp only
    rw [if_neg hfull]
    exact ih hnext hr
  | case5 taken count w w₁ hread ih =>
    have hgrows := (drain_spec host d _ _ w₁).1.grows (congrArg (·.2.2) hr)
    obtain ⟨v₁, hgiven, hnext⟩ := h.read hread (hgrows.trans hlast)
    rw [drain_eq, hgiven]
    exact ih hnext hr

namespace Child

variable {child child' : Child} {stream : OutputStream}

theorem readStream_inStep (h : InStep host host' all w v)
    {result : Except SystemError StreamState} {bytes : List UInt8}
    (hr : child.readStream host.logged stream w = (result, bytes, child', w'))
    (hlast : w'.2 <+: all) :
    ∃ v', child.readStream host'.logged stream v = (result, bytes, child', v') ∧
      InStep host host' all w' v' := by
  simp only [readStream] at hr ⊢
  cases hd : (child.withResidue [] stream).pipe stream with
  | none =>
    rw [hd] at hr
    obtain ⟨rfl, rfl, rfl, rfl⟩ := hr
    exact ⟨v, rfl, h⟩
  | some d =>
    rw [hd] at hr
    dsimp only at hr ⊢
    rcases hdrain : drain host.logged d (child.residue stream) 0 w with ⟨pause, taken, w₁⟩
    rw [hdrain] at hr
    cases pause with
    | later =>
      obtain ⟨rfl, rfl, rfl, rfl⟩ := hr
      obtain ⟨v₁, hdrained, hnext⟩ := drain_inStep h hdrain hlast
      rw [hdrained]
      exact ⟨v₁, rfl, hnext⟩
    | ended | failed cause =>
      obtain ⟨rfl, rfl, rfl, rfl⟩ := hr
      have hclose : w₁.2 <+: (host.logged.close d w₁).2 := List.prefix_append ..
      obtain ⟨v₁, hdrained, hnext⟩ := drain_inStep h hdrain (hclose.trans hlast)
      rw [hdrained]
      exact ⟨_, rfl, hnext.close hlast⟩

theorem keepRest_inStep (h : InStep host host' all w v)
    (hr : child.keepRest host.logged stream w = (child', w')) (hlast : w'.2 <+: all) :
    ∃ v', child.keepRest host'.logged stream v = (child', v') ∧ InStep host host' all w' v' := by
  simp only [keepRest] at hr ⊢
  cases hd : child.pipe stream with
  | none =>
    rw [hd] at hr
    obtain ⟨rfl, rfl⟩ := hr
    exact ⟨v, rfl, h⟩
  | some d =>
    rw [hd] at hr
    dsimp only at hr ⊢
    rcases hdrain : drain host.logged d (child.residue stream) 0 w with ⟨pause, bytes, w₁⟩
    rw [hdrain] at hr
    obtain ⟨rfl, rfl⟩ := hr
    obtain ⟨v', hdrained, hstep⟩ := drain_inStep h hdrain hlast
    rw [hdrained]
    exact ⟨v', rfl, hstep⟩

theorem releasePipe_inStep (h : InStep host host' all w v)
    (hr : child.releasePipe host.logged stream w = (child', w')) (hlast : w'.2 <+: all) :
    ∃ v', child.releasePipe host'.logged stream v = (child', v') ∧
      InStep host host' all w' v' := by
  simp only [releasePipe] at hr ⊢
  cases hd : child.pipe stream with
  | none =>
    rw [hd] at hr
    obtain ⟨rfl, rfl⟩ := hr
    exact ⟨v, rfl, h⟩
  | some d =>
    rw [hd] at hr
    obtain ⟨rfl, rfl⟩ := hr
    exact ⟨_, rfl, h.close hlast⟩

/-! ### The end -/

theorem recordExit_inStep (h : InStep host host' all w v) {status : ExitStatus}
    (hr : child.recordExit host.logged status w = (child', w')) (hlast : w'.2 <+: all) :
    ∃ v', child.recordExit host'.logged status v = (child', v') ∧
      InStep host host' all w' v' := by
  simp only [recordExit] at hr ⊢
  rcases hkeep₁ : child.keepRest host.logged .stdout w with ⟨child₁, w₁⟩
  rcases hkeep₂ : child₁.keepRest host.logged .stderr w₁ with ⟨child₂, w₂⟩
  rcases hrelease₁ : child₂.releasePipe host.logged .stdout w₂ with ⟨child₃, w₃⟩
  rcases hrelease₂ : child₃.releasePipe host.logged .stderr w₃ with ⟨child₄, w₄⟩
  rcases hclose : child₄.closeStdin host.logged w₄ with ⟨child₅, w₅⟩
  simp only [hkeep₁, hkeep₂, hrelease₁, hrelease₂, hclose] at hr
  obtain ⟨rfl, rfl⟩ := Prod.mk.inj hr
  have h₄ := ((tells_closeStdin host child₄ w₄).grows (congrArg (·.2) hclose)).trans hlast
  have h₃ := ((tells_releasePipe host child₃ .stderr w₃).grows (congrArg (·.2) hrelease₂)).trans h₄
  have h₂ := ((tells_releasePipe host child₂ .stdout w₂).grows (congrArg (·.2) hrelease₁)).trans h₃
  have h₁ := ((child₁.keepRest_spec host .stderr w₁).1.grows (congrArg (·.2) hkeep₂)).trans h₂
  obtain ⟨v₁, hkept₁, hstep₁⟩ := keepRest_inStep h hkeep₁ h₁
  obtain ⟨v₂, hkept₂, hstep₂⟩ := keepRest_inStep hstep₁ hkeep₂ h₂
  obtain ⟨v₃, hreleased₁, hstep₃⟩ := releasePipe_inStep hstep₂ hrelease₁ h₃
  obtain ⟨v₄, hreleased₂, hstep₄⟩ := releasePipe_inStep hstep₃ hrelease₂ h₄
  obtain ⟨v₅, hclosed, hstep₅⟩ := closeStdin_inStep hstep₄ hclose hlast
  simp only [hkept₁, hkept₂, hreleased₁, hreleased₂, hclosed]
  exact ⟨v₅, rfl, hstep₅⟩

theorem tryWait_inStep (h : InStep host host' all w v)
    {result : Except SystemError (Option ExitStatus)}
    (hr : child.tryWait host.logged w = (result, child', w')) (hlast : w'.2 <+: all) :
    ∃ v', child.tryWait host'.logged v = (result, child', v') ∧ InStep host host' all w' v' := by
  simp only [tryWait] at hr ⊢
  cases hstatus : child.status with
  | some status =>
    rw [hstatus] at hr
    obtain ⟨rfl, rfl, rfl⟩ := hr
    exact ⟨v, rfl, h⟩
  | none =>
    rw [hstatus] at hr
    dsimp only at hr ⊢
    -- What is done when the answer reports the end.
    have hrecord {answer : ReapResult} {status : ExitStatus} {w₁ : ω × Log}
        (hreap : host.logged.reap child.pid w = (answer, w₁))
        (hr : (.ok (some status), child.recordExit host.logged status w₁) = (result, child', w')) :
        ∃ v₁ v', host'.logged.reap child.pid v = (answer, v₁) ∧
          (.ok (some status), child.recordExit host'.logged status v₁) = (result, child', v') ∧
            InStep host host' all w' v' := by
      obtain ⟨rfl, hrecorded⟩ := Prod.mk.inj hr
      have hgrows := (empties_recordExit host status child w₁).grows (congrArg (·.2) hrecorded)
      obtain ⟨v₁, hreaped, hnext⟩ := h.reap hreap (hgrows.trans hlast)
      obtain ⟨v', hsame, hstep⟩ := recordExit_inStep hnext hrecorded hlast
      exact ⟨v₁, v', hreaped, congrArg _ hsame, hstep⟩
    rcases hreap : host.logged.reap child.pid w with ⟨_ | _ | errno, w₁⟩
    · rw [hreap] at hr
      obtain ⟨v₁, v', hreaped, hsame, hstep⟩ := hrecord hreap hr
      rw [hreaped]
      exact ⟨v', hsame, hstep⟩
    · rw [hreap] at hr
      obtain ⟨rfl, rfl, rfl⟩ := hr
      obtain ⟨v', hreaped, hstep⟩ := h.reap hreap hlast
      rw [hreaped]
      exact ⟨v', rfl, hstep⟩
    · rw [hreap] at hr
      dsimp only at hr
      split at hr
      · next hlost =>
        obtain ⟨v₁, v', hreaped, hsame, hstep⟩ := hrecord hreap hr
        rw [hreaped]
        exact ⟨v', (if_pos hlost).trans hsame, hstep⟩
      · next hlost =>
        obtain ⟨rfl, rfl, rfl⟩ := hr
        obtain ⟨v', hreaped, hstep⟩ := h.reap hreap hlast
        rw [hreaped]
        exact ⟨v', if_neg hlost, hstep⟩

end Child

end

end Chaperone
