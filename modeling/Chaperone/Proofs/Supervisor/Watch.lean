import Chaperone.Proofs.Supervisor.Apart

/-!
# Passes over a registry

A caller deals with all children of a supervisor at once: it looks at them or sends all of them a
signal, pass after pass, and meanwhile the machine may change in any way.  A `Watch` is a supervisor
whose children have numbers.

In a pass each child has its turn (`Watch.turns`).  The turns are all that a pass does
(`Watch.Keeps.calls_eq`).  As long as the callbacks keep to their children, what a pass makes of a
child is what its own turn makes of it (`Watch.Keeps.look_some`).
-/

namespace Chaperone

variable {σ τ ω ω' : Type}

inductive Pass where
  /-- A look at every child. -/
  | look
  /-- A signal to every child. -/
  | signal (signal : Signal)
  deriving DecidableEq, Repr, Inhabited

/-- A supervisor whose children have numbers, with the state that their callbacks share and the
machine it runs on. -/
structure Watch (σ ω : Type) : Type 1 where
  /-- The numbers of the children in the registry, in its order. -/
  numbers : List Nat
  supervisor : Supervisor σ
  shared : σ
  machine : ω

namespace Watch

structure Separate (part : Nat → σ → τ) (children : List (Nat × Entry σ)) : Prop where
  nodup : (children.map Prod.fst).Nodup
  keep : ∀ p ∈ children, p.2.callbacks.KeepTo part p.1

/-- A supervisor of some children.  Their first callbacks have run; the others are recorded. -/
def start (children : List (Nat × Entry σ)) (s : σ) (w : ω) : Watch (σ × Trace) ω where
  numbers := children.map Prod.fst
  supervisor := ⟨children.map fun (n, entry) =>
    { entry with callbacks := entry.callbacks.recordedOn n }⟩
  shared := (s, [])
  machine := w

def children (watch : Watch σ ω) : List (Nat × Entry σ) :=
  watch.numbers.zip watch.supervisor.entries

def look (host : Host ω) (watch : Watch σ ω) : Watch σ ω :=
  let (_, supervisor, shared, machine) :=
    watch.supervisor.poll host watch.shared watch.machine
  let (entries, _) :=
    Supervisor.pollAll host watch.supervisor.entries watch.shared watch.machine
  let left := (watch.numbers.zip entries).filter fun (_, entry) => !entry.finished
  { numbers := left.map Prod.fst, supervisor, shared, machine }

def pass (host : Host ω) (watch : Watch σ ω) : Pass → Watch σ ω
  | .look => watch.look host
  | .signal signal =>
    { watch with machine := watch.supervisor.signalAll host signal watch.machine }

/-- The part that one child has in a pass. -/
structure Turn (ω : Type) where
  number : Nat
  /-- The machine when it is the turn of the child. -/
  machine : ω
  /-- The calls that are made for the child. -/
  calls : Log
  /-- The child afterwards. -/
  child : Child

def lookTurns (host : Host ω) : List (Nat × Entry σ) → σ → ω → List (Turn ω)
  | [], _, _ => []
  | (n, entry) :: rest, s, w =>
    let (after, s', w') := entry.poll host s w
    ⟨n, w, entry.calls host s w, after.child⟩ :: lookTurns host rest s' w'

def signalTurns (host : Host ω) (signal : Signal) : List (Nat × Entry σ) → ω → List (Turn ω)
  | [], _ => []
  | (n, entry) :: rest, w =>
    ⟨n, w, entry.child.signalCalls host signal w, entry.child⟩ ::
      signalTurns host signal rest (entry.child.signal host signal w).2

def turns (host : Host ω) (watch : Watch σ ω) : Pass → List (Turn ω)
  | .look => lookTurns host watch.children watch.shared watch.machine
  | .signal signal => signalTurns host signal watch.children watch.machine

def calls (host : Host ω) (watch : Watch σ ω) : Pass → Log
  | .look => (watch.supervisor.poll host.logged watch.shared (watch.machine, [])).2.2.2.2
  | .signal signal => (watch.supervisor.signalAll host.logged signal (watch.machine, [])).2

/-- The supervisor at another state of the machine. -/
def meanwhile (change : ω → ω) (watch : Watch σ ω) : Watch σ ω :=
  { watch with machine := change watch.machine }

/-- Pass after pass; before each of them the machine may change in any way. -/
def run (host : Host ω) (watch : Watch σ ω) (passes : List (Pass × (ω → ω))) : Watch σ ω :=
  passes.foldl (fun watch (pass, change) => (watch.meanwhile change).pass host pass) watch

/-- What is done next is done turn by turn, whatever the machine does before. -/
def TakesTurns (host : Host ω) (watch : Watch σ ω) : Prop :=
  ∀ change pass, (watch.meanwhile change).calls host pass =
    ((watch.meanwhile change).turns host pass).flatMap Turn.calls

def turnsOf (n : Nat) (turns : List (Turn ω)) : List (Turn ω) := turns.filter (·.number = n)

/-- The turns of one child in each of the passes. -/
def course (host : Host ω) (n : Nat) (watch : Watch σ ω) :
    List (Pass × (ω → ω)) → List (List (Turn ω))
  | [] => []
  | (pass, change) :: rest =>
    turnsOf n ((watch.meanwhile change).turns host pass) ::
      ((watch.meanwhile change).pass host pass).course host n rest

def Turn.deed (turn : Turn ω) : Log × Child := (turn.calls, turn.child)

/-- A second machine gives the same in the turns of a child there, for the calls that were made in
the turns of the child on a first one. -/
def SameResults (host : Host ω) (host' : Host ω') (turns : List (Turn ω))
    (turns' : List (Turn ω')) : Prop :=
  ∀ turn ∈ turns, ∀ turn' ∈ turns', Shows host host' turn.calls turn.machine turn'.machine

/-! ### One look -/

def left (host : Host ω) (children : List (Nat × Entry σ)) (s : σ) (w : ω) :
    List (Nat × Entry σ) :=
  ((children.map Prod.fst).zip (Supervisor.pollAll host (children.map Prod.snd) s w).1).filter
    fun (_, entry) => !entry.finished

def stays (k : Nat) (entry : Entry σ) : List (Nat × Entry σ) :=
  if entry.finished then [] else [(k, entry)]

theorem left_cons (host : Host ω) (k : Nat) (entry : Entry σ) (rest : List (Nat × Entry σ)) (s : σ)
    (w : ω) :
    left host ((k, entry) :: rest) s w =
      let m := entry.poll host s w
      stays k m.1 ++ left host rest m.2.1 m.2.2 := by
  simp only [left, stays, List.map_cons, Supervisor.pollAll, List.zip_cons_cons, List.filter_cons]
  cases (entry.poll host s w).1.finished <;> rfl

section

variable {part : Nat → σ → τ} {n : Nat} {children : List (Nat × Entry σ)}

theorem turnsOf_cons_of_eq {turn : Turn ω} (h : turn.number = n) (turns : List (Turn ω)) :
    turnsOf n (turn :: turns) = turn :: turnsOf n turns :=
  List.filter_cons_of_pos (decide_eq_true h)

theorem turnsOf_cons_of_ne {turn : Turn ω} (h : turn.number ≠ n) (turns : List (Turn ω)) :
    turnsOf n (turn :: turns) = turnsOf n turns :=
  List.filter_cons_of_neg (by simpa using h)

theorem lookup_cons_of_ne {k : Nat} (h : k ≠ n) (entry : Entry σ) (rest : List (Nat × Entry σ)) :
    ((k, entry) :: rest).lookup n = rest.lookup n := by
  rw [List.lookup_cons, beq_false_of_ne h.symm]

theorem mem_stays {k : Nat} {entry : Entry σ} {p : Nat × Entry σ} :
    p ∈ stays k entry ↔ entry.finished = false ∧ p = (k, entry) := by
  rw [stays]
  cases hf : entry.finished <;> simp

theorem lookup_stays_of_ne {k : Nat} (h : k ≠ n) (entry : Entry σ) :
    (stays k entry).lookup n = none := by
  rw [stays]
  split
  · rfl
  · exact lookup_cons_of_ne h entry []

theorem lookup_stays (entry : Entry σ) :
    (stays n entry).lookup n = (some entry).filter fun entry => !entry.finished := by
  rw [stays]
  cases hf : entry.finished <;> simp [hf, Option.filter]

theorem not_mem_of_lookup (hn : children.lookup n = none) : n ∉ children.map Prod.fst := by
  intro hmem
  obtain ⟨p, hp, rfl⟩ := List.mem_map.mp hmem
  simpa using List.lookup_eq_none_iff.mp hn p hp

/-- A look has nothing to do with a child that is not there. -/
theorem look_of_not_mem (hkeep : ∀ p ∈ children, p.2.KeepsTo part p.1)
    (hn : n ∉ children.map Prod.fst) (host : Host ω) (s : σ) (w : ω) :
    turnsOf n (lookTurns host children s w) = [] ∧ (left host children s w).lookup n = none ∧
      part n (Supervisor.pollAll host (children.map Prod.snd) s w).2.1 = part n s := by
  induction children generalizing s w with
  | nil => exact ⟨rfl, rfl, rfl⟩
  | cons p rest ih =>
    obtain ⟨k, entry⟩ := p
    obtain ⟨hentry, hrest⟩ := List.forall_mem_cons.mp hkeep
    obtain ⟨hk, hn⟩ := not_or.mp (mt List.mem_cons.mpr hn)
    obtain ⟨-, hothers⟩ := hentry.poll host s w
    obtain ⟨hturns, hleft, hpart⟩ := ih hrest hn (entry.poll host s w).2.1 (entry.poll host s w).2.2
    refine ⟨?_, ?_, hpart.trans (hothers n hk)⟩
    · exact (turnsOf_cons_of_ne (Ne.symm hk) _).trans hturns
    · rw [left_cons, List.lookup_append, lookup_stays_of_ne (Ne.symm hk)]
      exact hleft

/-- A look at all children is for each of them a look at it alone, at some moment in between. -/
theorem look_of_lookup (hkeep : ∀ p ∈ children, p.2.KeepsTo part p.1)
    (hnodup : (children.map Prod.fst).Nodup) {entry : Entry σ}
    (hn : children.lookup n = some entry) (host : Host ω) (s : σ) (w : ω) :
    ∃ s₁ w₁, part n s₁ = part n s ∧
      turnsOf n (lookTurns host children s w) =
        [⟨n, w₁, entry.calls host s₁ w₁, (entry.poll host s₁ w₁).1.child⟩] ∧
      (left host children s w).lookup n =
        (some (entry.poll host s₁ w₁).1).filter (fun entry => !entry.finished) ∧
      part n (Supervisor.pollAll host (children.map Prod.snd) s w).2.1 =
        part n (entry.poll host s₁ w₁).2.1 := by
  induction children generalizing s w with
  | nil => cases hn
  | cons p rest ih =>
    obtain ⟨k, first⟩ := p
    obtain ⟨hfirst, hrest⟩ := List.forall_mem_cons.mp hkeep
    obtain ⟨hk, hnodup⟩ := List.nodup_cons.mp hnodup
    by_cases hkn : k = n
    · subst hkn
      rw [List.lookup_cons_self] at hn
      obtain rfl := Option.some.inj hn
      obtain ⟨hturns, hleft, hpart⟩ :=
        look_of_not_mem hrest hk host (first.poll host s w).2.1 (first.poll host s w).2.2
      refine ⟨s, w, rfl, ?_, ?_, hpart⟩
      · exact (turnsOf_cons_of_eq rfl _).trans (congrArg _ hturns)
      · rw [left_cons, List.lookup_append, lookup_stays, hleft, Option.or_none]
    · rw [lookup_cons_of_ne hkn] at hn
      obtain ⟨-, hothers⟩ := hfirst.poll host s w
      obtain ⟨s₁, w₁, hbefore, hturns, hleft, hpart⟩ :=
        ih hrest hnodup hn (first.poll host s w).2.1 (first.poll host s w).2.2
      refine ⟨s₁, w₁, hbefore.trans (hothers n (Ne.symm hkn)), ?_, ?_, hpart⟩
      · exact (turnsOf_cons_of_ne hkn _).trans hturns
      · rw [left_cons, List.lookup_append, lookup_stays_of_ne hkn]
        exact hleft

/-- A child that is left keeps apart as before. -/
theorem keep_left (host : Host ω) (hkeep : ∀ p ∈ children, p.2.KeepsTo part p.1) (s : σ) (w : ω) :
    ∀ p ∈ left host children s w, p.2.KeepsTo part p.1 := by
  induction children generalizing s w with
  | nil => exact fun p hp => by cases hp
  | cons p rest ih =>
    obtain ⟨k, entry⟩ := p
    obtain ⟨hentry, hrest⟩ := List.forall_mem_cons.mp hkeep
    obtain ⟨hstill, -⟩ := hentry.poll host s w
    intro p hp
    rw [left_cons] at hp
    rcases List.mem_append.mp hp with hp | hp
    · obtain ⟨hfinished, rfl⟩ := mem_stays.mp hp
      exact hstill hfinished
    · exact ih hrest _ _ p hp

/-- No child gets another number. -/
theorem sublist_left (host : Host ω) (children : List (Nat × Entry σ)) (s : σ) (w : ω) :
    ((left host children s w).map Prod.fst).Sublist (children.map Prod.fst) := by
  induction children generalizing s w with
  | nil => exact List.Sublist.refl _
  | cons p rest ih =>
    obtain ⟨k, entry⟩ := p
    rw [left_cons, List.map_append, List.map_cons]
    have hrest := ih (entry.poll host s w).2.1 (entry.poll host s w).2.2
    rw [stays]
    split
    · exact hrest.cons k
    · exact hrest.cons_cons k

/-! ### One signal -/

theorem signal_of_not_mem (hn : n ∉ children.map Prod.fst) (host : Host ω) (signal : Signal)
    (w : ω) : turnsOf n (signalTurns host signal children w) = [] := by
  induction children generalizing w with
  | nil => rfl
  | cons p rest ih =>
    obtain ⟨hk, hn⟩ := not_or.mp (mt List.mem_cons.mpr hn)
    exact (turnsOf_cons_of_ne (Ne.symm hk) _).trans (ih hn _)

theorem signal_of_lookup (hnodup : (children.map Prod.fst).Nodup) {entry : Entry σ}
    (hn : children.lookup n = some entry) (host : Host ω) (signal : Signal) (w : ω) :
    ∃ w₁, turnsOf n (signalTurns host signal children w) =
      [⟨n, w₁, entry.child.signalCalls host signal w₁, entry.child⟩] := by
  induction children generalizing w with
  | nil => cases hn
  | cons p rest ih =>
    obtain ⟨k, first⟩ := p
    obtain ⟨hk, hnodup⟩ := List.nodup_cons.mp hnodup
    by_cases hkn : k = n
    · subst hkn
      rw [List.lookup_cons_self] at hn
      obtain rfl := Option.some.inj hn
      have hothers := signal_of_not_mem hk host signal (first.child.signal host signal w).2
      exact ⟨w, (turnsOf_cons_of_eq rfl _).trans (congrArg _ hothers)⟩
    · rw [lookup_cons_of_ne hkn] at hn
      obtain ⟨w₁, hturns⟩ := ih hnodup hn (first.child.signal host signal w).2
      exact ⟨w₁, (turnsOf_cons_of_ne hkn _).trans hturns⟩

end

/-! ### All calls -/

theorem pollAll_logged (host : Host ω) (children : List (Nat × Entry σ)) (s : σ) (w : ω)
    (log : Log) :
    Supervisor.pollAll host.logged (children.map Prod.snd) s (w, log) =
      let r := Supervisor.pollAll host (children.map Prod.snd) s w
      (r.1, r.2.1, r.2.2, log ++ (lookTurns host children s w).flatMap Turn.calls) := by
  induction children generalizing s w log with
  | nil => exact congrArg (fun log => ([], s, w, log)) (List.append_nil log).symm
  | cons p rest ih =>
    obtain ⟨n, entry⟩ := p
    simp only [List.map_cons, Supervisor.pollAll, entry.poll_logged, ih, lookTurns,
      List.flatMap_cons, List.append_assoc]

theorem signalEach_logged (host : Host ω) (signal : Signal) (children : List (Nat × Entry σ))
    (w : ω) (log : Log) :
    Supervisor.signalEach host.logged signal (children.map Prod.snd) (w, log) =
      (Supervisor.signalEach host signal (children.map Prod.snd) w,
        log ++ (signalTurns host signal children w).flatMap Turn.calls) := by
  induction children generalizing w log with
  | nil => exact congrArg (w, ·) (List.append_nil log).symm
  | cons p rest ih =>
    obtain ⟨n, entry⟩ := p
    simp only [List.map_cons, Supervisor.signalEach, entry.child.signal_logged, ih, signalTurns,
      List.flatMap_cons, List.append_assoc]

/-! ### What every pass keeps -/

variable {part : Nat → σ → τ} {n : Nat} {watch : Watch σ ω} {watch' : Watch σ ω'}

structure Keeps (part : Nat → σ → τ) (watch : Watch σ ω) : Prop where
  length : watch.numbers.length = watch.supervisor.entries.length
  nodup : watch.numbers.Nodup
  keep : ∀ p ∈ watch.children, p.2.KeepsTo part p.1

/-- The machine has no part in it. -/
theorem Keeps.moved (h : watch.Keeps part) (w : ω) : { watch with machine := w }.Keeps part :=
  ⟨h.length, h.nodup, h.keep⟩

theorem Keeps.map_fst (h : watch.Keeps part) : watch.children.map Prod.fst = watch.numbers :=
  List.map_fst_zip (Nat.le_of_eq h.length)

theorem Keeps.map_snd (h : watch.Keeps part) :
    watch.children.map Prod.snd = watch.supervisor.entries :=
  List.map_snd_zip (Nat.le_of_eq h.length.symm)

theorem Keeps.nodup_children (h : watch.Keeps part) : (watch.children.map Prod.fst).Nodup := by
  rw [h.map_fst]
  exact h.nodup

/-- The turns of the children are all that a pass does. -/
theorem Keeps.calls_eq (h : watch.Keeps part) (host : Host ω) (pass : Pass) :
    watch.calls host pass = (watch.turns host pass).flatMap Turn.calls := by
  cases pass with
  | look =>
    have hlogged := pollAll_logged host watch.children watch.shared watch.machine []
    rw [h.map_snd] at hlogged
    exact congrArg (·.2.2.2) hlogged
  | signal signal =>
    have hlogged := signalEach_logged host signal watch.children watch.machine []
    rw [h.map_snd] at hlogged
    exact congrArg Prod.snd hlogged

theorem Keeps.takesTurns (h : watch.Keeps part) (host : Host ω) : watch.TakesTurns host :=
  fun _ pass => (h.moved _).calls_eq host pass

theorem length_pollAll (host : Host ω) (entries : List (Entry σ)) (s : σ) (w : ω) :
    (Supervisor.pollAll host entries s w).1.length = entries.length := by
  induction entries generalizing s w with
  | nil => rfl
  | cons entry rest ih => exact congrArg Nat.succ (ih _ _)

/-- What is left of the children is what the registry holds. -/
theorem Keeps.children_look (h : watch.Keeps part) (host : Host ω) :
    (watch.look host).numbers = (left host watch.children watch.shared watch.machine).map Prod.fst ∧
      (watch.look host).supervisor.entries =
        (left host watch.children watch.shared watch.machine).map Prod.snd := by
  rw [left, h.map_fst, h.map_snd]
  refine ⟨rfl, ?_⟩
  have hlength : (Supervisor.pollAll host watch.supervisor.entries watch.shared
      watch.machine).1.length ≤ watch.numbers.length :=
    Nat.le_of_eq ((length_pollAll ..).trans h.length.symm)
  have hentries := List.filter_map (p := fun entry : Entry σ => !entry.finished) (f := Prod.snd)
    (l := watch.numbers.zip (Supervisor.pollAll host watch.supervisor.entries watch.shared
      watch.machine).1)
  rw [List.map_snd_zip hlength] at hentries
  exact hentries

/-- A look keeps what is supposed of the children. -/
theorem Keeps.look (h : watch.Keeps part) (host : Host ω) : (watch.look host).Keeps part ∧
    (watch.look host).children = left host watch.children watch.shared watch.machine := by
  obtain ⟨hnumbers, hentries⟩ := h.children_look host
  have hchildren :
      (watch.look host).children = left host watch.children watch.shared watch.machine := by
    have hzip := List.zip_unzip (left host watch.children watch.shared watch.machine)
    rw [List.unzip_eq_map] at hzip
    rw [children, hnumbers, hentries, hzip]
  refine ⟨⟨?_, ?_, ?_⟩, hchildren⟩
  · rw [hnumbers, hentries, List.length_map, List.length_map]
  · rw [hnumbers]
    exact (sublist_left host watch.children _ _).nodup h.nodup_children
  · rw [hchildren]
    exact keep_left host h.keep _ _

/-- The state that a look leaves is that of the look at its children. -/
theorem Keeps.shared_look (h : watch.Keeps part) (host : Host ω) :
    (watch.look host).shared = (Supervisor.pollAll host (watch.children.map Prod.snd) watch.shared
      watch.machine).2.1 := by
  rw [h.map_snd]
  rfl

theorem Keeps.look_none (h : watch.Keeps part) (hn : watch.children.lookup n = none)
    (host : Host ω) :
    turnsOf n (watch.turns host .look) = [] ∧ (watch.look host).children.lookup n = none ∧
      part n (watch.look host).shared = part n watch.shared := by
  rw [h.shared_look, (h.look host).2]
  exact look_of_not_mem h.keep (not_mem_of_lookup hn) host watch.shared watch.machine

theorem Keeps.look_some (h : watch.Keeps part) {entry : Entry σ}
    (hn : watch.children.lookup n = some entry) (host : Host ω) :
    ∃ s w, part n s = part n watch.shared ∧
      turnsOf n (watch.turns host .look) =
        [⟨n, w, entry.calls host s w, (entry.poll host s w).1.child⟩] ∧
      (watch.look host).children.lookup n =
        (some (entry.poll host s w).1).filter (fun entry => !entry.finished) ∧
      part n (watch.look host).shared = part n (entry.poll host s w).2.1 := by
  rw [h.shared_look, (h.look host).2]
  exact look_of_lookup h.keep h.nodup_children hn host watch.shared watch.machine

end Watch

end Chaperone
