import Chaperone.Proofs.Child.Hom

/-!
# What every call keeps

A supervisor reaches the machine only through the calls of a `Host`.  So what each call keeps
(`Host.Keeps`) is kept by whatever the supervisor does: the machine can be cut down to the states
with this property (`Host.within`), the calls there are carried to those of the whole machine, and
with them everything that is made of calls.

A state is reached from another one if it has whatever the other one has and every call keeps
(`Host.Reaches`).

That no call sets the clock back is one of the things that every call keeps.  `Host.Timed` is a
machine with such a clock.
-/

namespace Chaperone

variable {ω : Type}

structure Host.Keeps (host : Host ω) (P : ω → Prop) : Prop where
  read : ∀ d n w, P w → P (host.read d n w).2
  write : ∀ d bytes w, P w → P (host.write d bytes w).2
  close : ∀ d w, P w → P (host.close d w)
  reap : ∀ pid w, P w → P (host.reap pid w).2
  await : ∀ pid w, P w → P (host.await pid w).2
  kill : ∀ target signal w, P w → P (host.kill target signal w).2
  watch : ∀ pipes time w, P w → P (host.watch pipes time w).2
  sleep : ∀ time w, P w → P (host.sleep time w)
  now : ∀ w, P w → P (host.now w).2
  start : ∀ request w, P w → P (host.start request w).2
  readFile : ∀ path w, P w → P (host.readFile path w).2

namespace Host

variable {host : Host ω} {P : ω → Prop}

/-- The machine in the states with a property. -/
def within (host : Host ω) (h : host.Keeps P) : Host { w // P w } where
  read d n w := ((host.read d n w).1, ⟨_, h.read d n w w.2⟩)
  write d bytes w := ((host.write d bytes w).1, ⟨_, h.write d bytes w w.2⟩)
  close d w := ⟨_, h.close d w w.2⟩
  reap pid w := ((host.reap pid w).1, ⟨_, h.reap pid w w.2⟩)
  await pid w := ((host.await pid w).1, ⟨_, h.await pid w w.2⟩)
  kill target signal w := ((host.kill target signal w).1, ⟨_, h.kill target signal w w.2⟩)
  watch pipes time w := ((host.watch pipes time w).1, ⟨_, h.watch pipes time w w.2⟩)
  sleep time w := ⟨_, h.sleep time w w.2⟩
  now w := ((host.now w).1, ⟨_, h.now w w.2⟩)
  start request w := ((host.start request w).1, ⟨_, h.start request w w.2⟩)
  view w := host.view w
  readFile path w := ((host.readFile path w).1, ⟨_, h.readFile path w w.2⟩)
  wallClock w := host.wallClock w
  patience w := host.patience w
  patience_read h := by
    obtain ⟨hresult, rfl⟩ := Prod.mk.inj h
    exact host.patience_read (Prod.ext hresult rfl)
  patience_write h := by
    obtain ⟨hresult, rfl⟩ := Prod.mk.inj h
    exact host.patience_write (Prod.ext hresult rfl)
  length_read h := host.length_read (Prod.ext (Prod.mk.inj h).1 rfl)
  count_write h := host.count_write (Prod.ext (Prod.mk.inj h).1 rfl)
  nodup_start h := host.nodup_start (Prod.ext (Prod.mk.inj h).1 rfl)

/-- The calls there are those of the whole machine. -/
theorem inside (h : host.Keeps P) : Hom (host.within h) host Subtype.val := by
  constructor <;> intros <;> rfl

/-- A state that has whatever another one has and every call keeps. -/
def Reaches (host : Host ω) (w w' : ω) : Prop := ∀ P, host.Keeps P → P w → P w'

theorem Reaches.refl (host : Host ω) (w : ω) : host.Reaches w w := fun _ _ h => h

/-- Every call leads to a state that is reached. -/
theorem keeps_reaches (host : Host ω) (w : ω) : host.Keeps (host.Reaches w) where
  read d n w' h P hP hw := hP.read d n w' (h P hP hw)
  write d bytes w' h P hP hw := hP.write d bytes w' (h P hP hw)
  close d w' h P hP hw := hP.close d w' (h P hP hw)
  reap pid w' h P hP hw := hP.reap pid w' (h P hP hw)
  await pid w' h P hP hw := hP.await pid w' (h P hP hw)
  kill target signal w' h P hP hw := hP.kill target signal w' (h P hP hw)
  watch pipes time w' h P hP hw := hP.watch pipes time w' (h P hP hw)
  sleep time w' h P hP hw := hP.sleep time w' (h P hP hw)
  now w' h P hP hw := hP.now w' (h P hP hw)
  start request w' h P hP hw := hP.start request w' (h P hP hw)
  readFile path w' h P hP hw := hP.readFile path w' (h P hP hw)

end Host

/-! ### Machines with a clock -/

structure Host.Timed (host : Host ω) where
  clock : ω → Nat
  /-- No call sets the clock back. -/
  onward : ∀ time, host.Keeps fun w => time ≤ clock w
  /-- What is read is the time at which it is read. -/
  le_now : ∀ w, clock w ≤ (host.now w).1
  now_le : ∀ w, (host.now w).1 ≤ clock (host.now w).2
  /-- A pause is not shorter than was asked for, and never no pause at all. -/
  sleep : ∀ time w, clock w + max time 1 ≤ clock (host.sleep time w)

def Host.Timed.logged {host : Host ω} (timed : host.Timed) : host.logged.Timed where
  clock w := timed.clock w.1
  onward time :=
    have onward := timed.onward time
    { read := fun d n w => onward.read d n w.1
      write := fun d bytes w => onward.write d bytes w.1
      close := fun d w => onward.close d w.1
      reap := fun pid w => onward.reap pid w.1
      await := fun pid w => onward.await pid w.1
      kill := fun target signal w => onward.kill target signal w.1
      watch := fun pipes time w => onward.watch pipes time w.1
      sleep := fun time w => onward.sleep time w.1
      now := fun w => onward.now w.1
      start := fun request w => onward.start request w.1
      readFile := fun path w => onward.readFile path w.1 }
  le_now w := timed.le_now w.1
  now_le w := timed.now_le w.1
  sleep time w := timed.sleep time w.1

end Chaperone
