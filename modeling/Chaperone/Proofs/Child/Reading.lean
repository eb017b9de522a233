import Chaperone.Proofs.Child.Rest
import Mathlib.Data.Nat.Find
import Mathlib.Logic.Function.Iterate

/-!
# What one reading takes

A reading is a loop of reads.  The loop has no bound of its own: it ends because enough was taken,
and interruptions, which take nothing, do not go on forever.

* `Reading`: the reads that a reading makes, one for each trip of the loop, and what it gives.
* `drain_reading`: every reading is such a loop, which ends.
* `Reader.host`: whatever is read chunk by chunk and does not interrupt forever is read by a
  machine, so that this holds of every reader, also of one that always has data.
-/

namespace Chaperone

variable {ω ρ : Type}

/-! ### The loop -/

def ReadResult.payload : ReadResult → List UInt8
  | .bytes chunk => chunk
  | _ => []

def drainTrip (read : ω → ReadResult × ω) :
    List UInt8 × Nat × ω → (List UInt8 × Nat × ω) ⊕ (Pause × List UInt8 × ω)
  | (taken, count, w) =>
    match read w with
    | (.bytes [], w) => .inr (.ended, taken, w)
    | (.bytes (b :: chunk), w) =>
      let count := count + (chunk.length + 1)
      if maxPerCall ≤ count then .inr (.later, taken ++ b :: chunk, w)
      else .inl (taken ++ b :: chunk, count, w)
    | (.wouldBlock, w) => .inr (.later, taken, w)
    | (.interrupted, w) => .inl (taken, count, w)
    | (.failed cause, w) => .inr (.failed cause, taken, w)

/-- A reading that makes reads with these results, and what it gives. -/
structure Reading (host : Host ω) (d : Descriptor) (taken : List UInt8) (count : Nat)
    (w : ω × Log) (results : List ReadResult) (r : Pause × List UInt8 × ω × Log) : Prop where
  /-- The loop ends after one trip for each read. -/
  loop : iterate (drainTrip (host.logged.read d readChunk)) results.length (taken, count, w) =
    .inr r
  log : r.2.2.2 = w.2 ++ results.map (.read d readChunk)
  /-- All that was read was taken, in order. -/
  bytes : r.2.1 = taken ++ results.flatMap ReadResult.payload
  /-- The end is reported exactly when a read gave no bytes. -/
  ended : r.1 = .ended ↔ .bytes [] ∈ results

namespace Reading

variable {host : Host ω} {d : Descriptor} {taken taken' : List UInt8} {count count' : Nat}
  {w w' : ω × Log} {result : ReadResult}

/-- A read after which there is no other. -/
theorem last {pause : Pause} (hr : host.logged.read d readChunk w = (result, w'))
    (htrip : drainTrip (host.logged.read d readChunk) (taken, count, w) = .inr (pause, taken', w'))
    (hbytes : taken' = taken ++ result.payload)
    (hended : pause = .ended ↔ result = .bytes []) :
    Reading host d taken count w [result] (pause, taken', w') where
  loop := by rw [List.length_singleton, iterate, htrip]
  log := log_of_read hr
  bytes := by rw [hbytes, List.flatMap_singleton]
  ended := by rw [hended, List.mem_singleton, eq_comm]

/-- A read, and then the rest of a reading. -/
theorem step {results : List ReadResult} {r : Pause × List UInt8 × ω × Log}
    (hr : host.logged.read d readChunk w = (result, w'))
    (htrip : drainTrip (host.logged.read d readChunk) (taken, count, w) = .inl (taken', count', w'))
    (hbytes : taken' = taken ++ result.payload) (hresult : result ≠ .bytes [])
    (h : Reading host d taken' count' w' results r) :
    Reading host d taken count w (result :: results) r where
  loop := by
    rw [List.length_cons, iterate, htrip]
    exact h.loop
  log := by
    rw [h.log, log_of_read hr, List.append_assoc]
    rfl
  bytes := by rw [h.bytes, hbytes, List.append_assoc, List.flatMap_cons]
  ended := by
    rw [h.ended, List.mem_cons]
    exact ⟨Or.inr, fun hmem => hmem.resolve_left (Ne.symm hresult)⟩

end Reading

/-- **A reading is a loop that ends**, for every pipe of every machine. -/
theorem drain_reading (host : Host ω) (d : Descriptor) (taken : List UInt8) (count : Nat)
    (w : ω × Log) :
    ∃ results, Reading host d taken count w results (drain host.logged d taken count w) := by
  fun_induction drain host.logged d taken count w with
  | case1 taken count w w' hr =>
    exact ⟨_, .last hr (by simp only [drainTrip, hr]) (List.append_nil _).symm (by simp)⟩
  | case2 taken count w b chunk w' hr count' hcap =>
    have htrip : drainTrip (host.logged.read d readChunk) (taken, count, w) =
        .inr (.later, taken ++ b :: chunk, w') := by
      simp only [drainTrip, hr]
      exact if_pos hcap
    exact ⟨_, .last hr htrip rfl (by simp)⟩
  | case3 taken count w b chunk w' hr count' hcap ih =>
    obtain ⟨results, h⟩ := ih
    have htrip : drainTrip (host.logged.read d readChunk) (taken, count, w) =
        .inl (taken ++ b :: chunk, count', w') := by
      simp only [drainTrip, hr]
      exact if_neg hcap
    exact ⟨_, h.step hr htrip rfl (by simp)⟩
  | case4 taken count w w' hr =>
    exact ⟨_, .last hr (by simp only [drainTrip, hr]) (List.append_nil _).symm (by simp)⟩
  | case5 taken count w w' hr ih =>
    obtain ⟨results, h⟩ := ih
    exact ⟨_, h.step hr (by simp only [drainTrip, hr]) (List.append_nil _).symm (by simp)⟩
  | case6 taken count w cause w' hr =>
    exact ⟨_, .last hr (by simp only [drainTrip, hr]) (List.append_nil _).symm (by simp)⟩

theorem length_drain (host : Host ω) (d : Descriptor) (taken : List UInt8) (w : ω) :
    (drain host d taken 0 w).2.1.length < taken.length + (maxPerCall + readChunk) := by
  have hbound := Pipes.drain_bound host d taken 0 w (by decide)
  rwa [Nat.zero_add] at hbound

/-- **What a reading takes** is less than one chunk more than enough. -/
theorem drain_takes (host : Host ω) (d : Descriptor) (taken : List UInt8) (w : ω × Log) :
    ∃ results, Reading host d taken 0 w results (drain host.logged d taken 0 w) ∧
      (results.flatMap ReadResult.payload).length < maxPerCall + readChunk := by
  obtain ⟨results, h⟩ := drain_reading host d taken 0 w
  have hlength := length_drain host.logged d taken w
  rw [h.bytes, List.length_append] at hlength
  exact ⟨results, h, by omega⟩

/-! ### Readers -/

def ReadResult.clip (n : Nat) : ReadResult → ReadResult
  | .bytes chunk => .bytes (chunk.take n)
  | result => result

structure Reader (ρ : Type) where
  read : ρ → ReadResult × ρ
  length_read : ∀ {r chunk r'}, read r = (.bytes chunk, r') → chunk.length ≤ readChunk
  /-- It does not interrupt forever. -/
  settles : ∀ r, ∃ n, (read ((Prod.snd ∘ read)^[n] r)).1 ≠ .interrupted

namespace Reader

/-- How often in a row it interrupts. -/
def interruptions (reader : Reader ρ) (r : ρ) : Nat := Nat.find (reader.settles r)

theorem interruptions_lt (reader : Reader ρ) {r r' : ρ}
    (h : reader.read r = (.interrupted, r')) :
    reader.interruptions r' < reader.interruptions r := by
  -- The first read is interrupted, so the one that is not comes one read earlier from `r'` on.
  have hspec := Nat.find_spec (reader.settles r)
  change (reader.read ((Prod.snd ∘ reader.read)^[reader.interruptions r] r)).1 ≠ _ at hspec
  cases hn : reader.interruptions r with
  | zero =>
    rw [hn, Function.iterate_zero_apply, h] at hspec
    exact absurd rfl hspec
  | succ n =>
    rw [hn, Function.iterate_succ_apply, Function.comp_apply, h] at hspec
    exact Nat.lt_succ_of_le (Nat.find_min' (reader.settles r') hspec)

/-- A machine on which all there is to read is what the reader gives. -/
def host (reader : Reader ρ) : Host ρ where
  read _ n r := ((reader.read r).1.clip n, (reader.read r).2)
  write _ _ r := (.wouldBlock, r)
  close _ r := r
  reap _ r := (.running, r)
  await _ r := (.ok 0, r)
  kill _ _ r := (.ok (), r)
  watch _ _ r := (.ok (), r)
  sleep _ r := r
  now r := (0, r)
  start _ r := (.ok ⟨1, some 0, some 1, some 2⟩, r)
  view _ := ⟨fun _ => .executable, fun _ => true, .ok "/", []⟩
  readFile _ r := (.error (.os Errno.noEntry), r)
  wallClock _ := 0
  patience := reader.interruptions
  patience_read {d n r r'} h := by
    obtain ⟨hresult, rfl⟩ := Prod.mk.inj h
    refine reader.interruptions_lt (Prod.ext ?_ rfl)
    cases hr : (reader.read r).1 with
    | interrupted => rfl
    | bytes | wouldBlock | failed =>
      rw [hr] at hresult
      cases hresult
  patience_write h := by cases h
  length_read {d n r chunk r'} h := by
    have hresult := (Prod.mk.inj h).1
    cases hr : (reader.read r).1 with
    | bytes given =>
      rw [hr] at hresult
      cases hresult
      exact List.length_take_le ..
    | interrupted | wouldBlock | failed =>
      rw [hr] at hresult
      cases hresult
  count_write h := by cases h
  nodup_start h := by
    cases h
    decide

/-- A chunk is read there as the reader gives it. -/
theorem read_host (reader : Reader ρ) (d : Descriptor) :
    reader.host.read d readChunk = reader.read := by
  funext r
  refine Prod.ext ?_ rfl
  change (reader.read r).1.clip readChunk = (reader.read r).1
  cases hr : (reader.read r).1 with
  | bytes chunk =>
    have hlength := reader.length_read (Prod.ext hr rfl)
    exact congrArg ReadResult.bytes (List.take_of_length_le hlength)
  | wouldBlock | interrupted | failed => rfl

end Reader

end Chaperone
