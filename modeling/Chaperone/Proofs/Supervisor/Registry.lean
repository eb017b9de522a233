import Chaperone.Proofs.Supervisor.Signals
import Mathlib.Data.List.Nodup

/-!
# Who is in the registry

Two kinds of events matter for a registry: that a child is launched, and that a look asks about the
children that are there.  A `Roll` is kept by these events alone: it holds who was launched, and
whose exit was seen.  `Session.history` are the events of a session, which it reads off the results
of the launches and the answers that the looks are given.

* `Session.Keeps`: the registry of a session has what its roll has left.
* `Session.keeps_launch`, `keeps_poll`, `keeps_wait`: every action goes on with the roll.
* `Session.registry_of_run`: so after any actions the registry holds the children that were launched
  and whose exit was not seen, in the order of their launch.
-/

namespace Chaperone

variable {σ ω : Type}

/-! ### The roll -/

inductive Notice where
  | launched (pid : Pid)
  /-- The answers about the children that are left, in order. -/
  | looked (answers : List ReapResult)

/-- Who was launched, and whose exit was seen.  Children are numbered in the order of their
launch. -/
structure Roll where
  launched : List Pid := []
  seen : List Nat := []

namespace Roll

def left (roll : Roll) : List (Pid × Nat) := roll.launched.zipIdx.filter (·.2 ∉ roll.seen)

def ended (roll : Roll) (answers : List ReapResult) : List Nat :=
  ((roll.left.zip answers).filter (·.2.status?.isSome)).map (·.1.2)

def note (roll : Roll) : Notice → Roll
  | .launched pid => { roll with launched := roll.launched ++ [pid] }
  | .looked answers => { roll with seen := roll.seen ++ roll.ended answers }

variable {roll : Roll} {answers : List ReapResult}

theorem numbers_left :
    roll.left.map Prod.snd = (List.range roll.launched.length).filter (· ∉ roll.seen) := by
  rw [List.range_eq_range', ← List.zipIdx_map_snd 0 roll.launched, List.filter_map]
  rfl

theorem mem_numbers {n : Nat} :
    n ∈ roll.left.map Prod.snd ↔ n < roll.launched.length ∧ n ∉ roll.seen := by
  simp [numbers_left]

/-- A launch puts a child at the end. -/
theorem left_launched (h : ∀ n ∈ roll.seen, n < roll.launched.length) (pid : Pid) :
    (roll.note (.launched pid)).left = roll.left ++ [(pid, roll.launched.length)] := by
  have hnew : roll.launched.length ∉ roll.seen := fun hseen => Nat.lt_irrefl _ (h _ hseen)
  rw [left, note, List.zipIdx_append, List.filter_append, left]
  simp [hnew]

/-- A child was seen to have ended when the answer about it says so. -/
theorem mem_ended (hlength : answers.length = roll.left.length) {p : Pid × Nat}
    {answer : ReapResult} (h : (p, answer) ∈ roll.left.zip answers) :
    p.2 ∈ roll.ended answers ↔ answer.status?.isSome := by
  refine ⟨?_, fun hsome => List.mem_map.mpr ⟨_, List.mem_filter.mpr ⟨h, hsome⟩, rfl⟩⟩
  have hnodup : ((roll.left.zip answers).map (·.1.2)).Nodup := by
    have hnumbers : (roll.left.zip answers).map (·.1.2) = roll.left.map Prod.snd := by
      conv => rhs; rw [← List.map_fst_zip (Nat.le_of_eq hlength.symm), List.map_map]
      rfl
    rw [hnumbers, numbers_left]
    exact List.nodup_range.filter _
  intro hended
  obtain ⟨q, hq, hnumber⟩ := List.mem_map.mp hended
  obtain ⟨hzip, hsome⟩ := List.mem_filter.mp hq
  obtain rfl := List.inj_on_of_nodup_map hnodup hzip h hnumber
  exact hsome

theorem mem_of_mem_ended {n : Nat} (h : n ∈ roll.ended answers) : n ∈ roll.left.map Prod.snd := by
  obtain ⟨⟨p, answer⟩, hp, rfl⟩ := List.mem_map.mp h
  exact List.mem_map_of_mem (List.of_mem_zip (List.mem_of_mem_filter hp)).1

/-- A look takes away those of whom an answer reports the end, and keeps the order of the rest. -/
theorem left_looked (hlength : answers.length = roll.left.length) :
    (roll.note (.looked answers)).left =
      ((roll.left.zip answers).filter (·.2.status?.isNone)).map Prod.fst := by
  have hfst : (roll.left.zip answers).map Prod.fst = roll.left :=
    List.map_fst_zip (Nat.le_of_eq hlength.symm)
  have hleft : (roll.note (.looked answers)).left =
      roll.left.filter (·.2 ∉ roll.ended answers) := by
    simp only [left, note, List.filter_filter]
    refine List.filter_congr fun p _ => ?_
    simp [Bool.and_comm]
  rw [hleft]
  conv => lhs; rw [← hfst, List.filter_map]
  refine congrArg _ (List.filter_congr ?_)
  rintro ⟨p, answer⟩ hp
  simp only [Function.comp_apply, mem_ended hlength hp]
  cases answer.status? <;> rfl

end Roll

/-! ### What a session tells of its registry -/

namespace Session

/-- The answers that the next look would be given. -/
def answers (host : Host ω) (session : Session σ ω) : List ReapResult :=
  ((asked (session.poll host).machine.2).drop (asked session.machine.2).length).map Prod.snd

/-- What the looks of a wait see.  Each round has one, and the caller may pause after it. -/
def waitNotices (host : Host ω) (interval : Nat) (deadline : Option Nat) :
    Nat → Session σ ω → List Notice
  | 0, _ => []
  | rounds + 1, session =>
    .looked (session.answers host) ::
      match Supervisor.waitRound host.logged interval deadline
        (session.supervisor, session.shared, session.machine) with
      | .inl state => waitNotices host interval deadline rounds (session.withState state)
      | .inr _ => []

def notices (host : Host ω) (session : Session σ ω) : Action σ ω → List Notice
  | .launch executable args options callbacks kill =>
    match (session.launch host executable args options callbacks kill).1 with
    | .ok pid => [.launched pid]
    | .error _ => []
  | .poll => [.looked (session.answers host)]
  | .wait rounds interval maxWait =>
    let (deadline, machine) := Supervisor.waitDeadline host.logged maxWait session.machine
    waitNotices host interval deadline rounds { session with machine }
  | _ => []

def history (host : Host ω) (session : Session σ ω) : List (Action σ ω) → List Notice
  | [] => []
  | action :: actions =>
    session.notices host action ++ (session.act host action).history host actions

structure Keeps (roll : Roll) (session : Session σ ω) : Prop where
  valid : session.Valid
  launches : session.launches = roll.launched.length
  seen : ∀ n ∈ roll.seen, n < roll.launched.length
  exits : ∀ n < session.launches, hasExit (session.firings n) = decide (n ∈ roll.seen)
  pids : session.supervisor.pids = roll.left.map Prod.fst

variable {roll : Roll} {session session' : Session σ ω}

theorem keeps_start (s : σ) (w : ω) : (start s w).Keeps {} :=
  ⟨valid_start s w, rfl, fun _ h => absurd h List.not_mem_nil,
    fun _ h => absurd h (Nat.not_lt_zero _), rfl⟩

/-- What touches neither the registry nor the callbacks leaves the roll. -/
theorem Keeps.of_eq (h : session.Keeps roll)
    (hsupervisor : session'.supervisor = session.supervisor)
    (htrace : session'.shared.2 = session.shared.2)
    (hlaunches : session'.launches = session.launches) : session'.Keeps roll := by
  refine ⟨h.valid.of_eq hsupervisor htrace hlaunches, hlaunches.trans h.launches, h.seen, ?_, ?_⟩
  · rw [firings_of_eq htrace, hlaunches]
    exact h.exits
  · rw [hsupervisor]
    exact h.pids

theorem Keeps.running (h : session.Keeps roll) : session.running = roll.left.map Prod.snd := by
  rw [Session.running, Roll.numbers_left, h.launches]
  refine List.filter_congr fun n hn => ?_
  rw [h.exits n (h.launches ▸ List.mem_range.mp hn), decide_not]

theorem Keeps.length (h : session.Keeps roll) :
    session.supervisor.entries.length = roll.left.length := by
  have hpids := congrArg List.length h.pids
  rwa [Supervisor.pids, List.length_map, List.length_map] at hpids

/-! ### Launching -/

/-- A launch that succeeds registers the child at the end; one that fails changes nothing. -/
theorem launch_registers (host : Host ω) (session : Session σ ω) (executable : String)
    (args : List String) (options : LaunchOptions) (callbacks : Callbacks σ) (kill : Bool) :
    let (result, after) := session.launch host executable args options callbacks kill
    match result with
    | .ok pid => ∃ entry, entry.child.pid = pid ∧
        after.supervisor.entries = session.supervisor.entries ++ [entry]
    | .error _ => after.supervisor = session.supervisor ∧ after.shared = session.shared := by
  simp only [launch, Supervisor.launch]
  generalize spawn host.logged executable args options session.machine = spawned
  obtain ⟨result, w⟩ := spawned
  cases result with
  | error cause => exact ⟨rfl, rfl⟩
  | ok child =>
    have hlaunched := Entry.minds_launched host session.shared w child
      (callbacks.recorded session.launches) kill
    exact ⟨_, hlaunched.pid, rfl⟩

theorem keeps_launch (h : session.Keeps roll) (host : Host ω) (executable : String)
    (args : List String) (options : LaunchOptions) (callbacks : Callbacks σ) (kill : Bool) :
    let action := Action.launch executable args options callbacks kill
    (session.act host action).Keeps ((session.notices host action).foldl Roll.note roll) := by
  obtain ⟨hfollows, hvalid⟩ :=
    launch_spec h.valid host executable args options callbacks kill
  have hregisters := session.launch_registers host executable args options callbacks kill
  simp only [Follows, act, notices] at hfollows hvalid ⊢
  generalize session.launch host executable args options callbacks kill = r
    at hfollows hregisters hvalid ⊢
  obtain ⟨result, after⟩ := r
  cases result with
  | error cause =>
    obtain ⟨hlaunches, htrace⟩ := hfollows
    exact h.of_eq hregisters.1 htrace hlaunches
  | ok pid =>
    obtain ⟨hlaunches, htrace⟩ := hfollows
    obtain ⟨entry, hpid, hentries⟩ := hregisters
    have hlength : (roll.launched ++ [pid]).length = roll.launched.length + 1 :=
      List.length_append
    refine ⟨hvalid, ?_, ?_, ?_, ?_⟩
    · exact hlaunches.trans ((congrArg Nat.succ h.launches).trans hlength.symm)
    · exact fun n hn => hlength ▸ Nat.lt_succ_of_lt (h.seen n hn)
    · intro n hn
      by_cases hne : n = session.launches
      · subst hne
        have hnew : session.launches ∉ roll.seen := fun hseen =>
          Nat.lt_irrefl _ (h.launches ▸ h.seen _ hseen)
        rw [firings_register h.valid.inOrder htrace]
        exact (decide_eq_false hnew).symm
      · rw [firings_register_of_ne htrace hne]
        exact h.exits n (by omega)
    · change after.supervisor.pids = (roll.note (.launched pid)).left.map Prod.fst
      rw [Roll.left_launched h.seen, List.map_append, ← h.pids, Supervisor.pids, hentries,
        List.map_append]
      exact congrArg _ (congrArg (fun pid => [pid]) hpid)

/-! ### Looking -/

/-- One look asks about each child, and those of whom no answer reports the end stay. -/
theorem pollAll_leaves (host : Host ω) {ns : List Nat} {entries : List (Entry (σ × Trace))}
    (hattends : List.Forall₂ Attends ns entries) (s : σ × Trace) (w : ω × Log)
    {r : List (Entry (σ × Trace)) × (σ × Trace) × ω × Log}
    (hr : Supervisor.pollAll host.logged entries s w = r) :
    ∃ answers : List ReapResult, answers.length = entries.length ∧
      asked r.2.2.2 = asked w.2 ++ (entries.map (·.child.pid)).zip answers ∧
      (r.1.filter fun entry => !entry.finished).map (·.child.pid) =
        (((entries.map (·.child.pid)).zip answers).filter (·.2.status?.isNone)).map Prod.fst := by
  induction hattends generalizing s w r with
  | nil =>
    subst hr
    exact ⟨[], rfl, (List.append_nil _).symm, rfl⟩
  | @cons n entry ns entries hentry hrest ih =>
    rw [Supervisor.pollAll] at hr
    have hpid := (entry.heeds_poll host s w).pid
    generalize hm : entry.poll host.logged s w = m at hr hpid
    obtain ⟨answer, -, -, hasked, -, hfinished, -, -⟩ :=
      entry.poll_recorded host s w hentry.callbacks hentry.status hentry.finished hm
    obtain ⟨answers, hlength, hasked', hleft⟩ := ih m.2.1 m.2.2 rfl
    generalize hr' : Supervisor.pollAll host.logged entries m.2.1 m.2.2 = r' at *
    obtain rfl : r = (m.1 :: r'.1, r'.2) := by
      subst hr hr'
      rfl
    refine ⟨answer :: answers, congrArg Nat.succ hlength, ?_, ?_⟩
    · rw [hasked', hasked, List.append_assoc]
      rfl
    · cases ha : answer.status? with
      | none =>
        rw [ha] at hfinished
        simp only [List.filter_cons, List.map_cons, List.zip_cons_cons, hfinished, ha]
        exact congrArg₂ _ hpid hleft
      | some status =>
        rw [ha] at hfinished
        simp only [List.filter_cons, List.map_cons, List.zip_cons_cons, hfinished, ha]
        exact hleft

/-- What a look does to the registry: it asks once about each child, in order, and those of whom
an answer reports the end leave. -/
theorem poll_leaves (h : session.Valid) (host : Host ω) :
    (session.answers host).length = session.supervisor.size ∧
      asked (session.poll host).machine.2 =
        asked session.machine.2 ++ session.supervisor.pids.zip (session.answers host) ∧
      (session.poll host).supervisor.pids =
        ((session.supervisor.pids.zip (session.answers host)).filter
          (·.2.status?.isNone)).map Prod.fst := by
  obtain ⟨given, hlength, hasked, hleft⟩ :=
    pollAll_leaves host h.attends session.shared session.machine rfl
  have hgiven : session.answers host = given := by
    have hpoll : asked (session.poll host).machine.2 = _ := hasked
    rw [answers, hpoll, List.drop_left, List.map_snd_zip]
    rw [hlength, List.length_map]
  rw [hgiven]
  exact ⟨hlength, hasked, hleft⟩

/-- A look goes on with the roll. -/
theorem keeps_poll (h : session.Keeps roll) (host : Host ω) :
    (session.poll host).Keeps (roll.note (.looked (session.answers host))) := by
  obtain ⟨hlooks, hvalid⟩ := poll_spec h.valid host
  obtain ⟨hlength, hasked, hpids⟩ := poll_leaves h.valid host
  obtain ⟨given, hgiven, hasked', -, hhanded⟩ := hlooks.answers
  rw [Supervisor.size, h.length] at hlength
  have hsame : given = session.answers host := by
    have hzip := List.append_cancel_left (hasked'.symm.trans hasked)
    have hnumbers : session.supervisor.pids.length = roll.left.length := by
      rw [h.pids, List.length_map]
    have hsnd := congrArg (List.map Prod.snd) hzip
    rw [h.running, List.length_map] at hgiven
    rwa [List.map_snd_zip (by omega), List.map_snd_zip (by omega)] at hsnd
  subst hsame
  have hexits (n : Nat) (hn : n < session.launches) :
      hasExit ((session.poll host).firings n) =
        decide (n ∈ roll.seen ++ roll.ended (session.answers host)) := by
    by_cases hrunning : n ∈ session.running
    · obtain ⟨answer, hanswer⟩ := exists_answer hgiven hrunning
      have hfired : Handed n answer session.shared.2 (session.poll host).shared.2 :=
        hhanded n answer hanswer
      have hexit : hasExit ((session.poll host).firings n) = answer.status?.isSome :=
        hfired.hasExit (mem_running.mp hrunning).2
      rw [h.running, List.zip_map_left] at hanswer
      obtain ⟨⟨p, _⟩, hp, hpair⟩ := List.mem_map.mp hanswer
      obtain ⟨rfl, rfl⟩ := Prod.mk.inj hpair
      have hseen : p.2 ∉ roll.seen :=
        (Roll.mem_numbers.mp (List.mem_map_of_mem (List.of_mem_zip hp).1)).2
      have hended := Roll.mem_ended hlength hp
      rw [hexit, Bool.eq_iff_iff, decide_eq_true_iff, List.mem_append]
      exact ⟨fun hsome => Or.inr (hended.mpr hsome), fun hn => hended.mp (hn.resolve_left hseen)⟩
    · have hseen : n ∈ roll.seen := by
        rw [h.running, Roll.mem_numbers, not_and_not_right] at hrunning
        exact hrunning (h.launches ▸ hn)
      rw [hlooks.others n hrunning, h.exits n hn]
      simp [hseen]
  refine ⟨hvalid, hlooks.launches.trans h.launches, ?_, ?_, ?_⟩
  · intro n hn
    rcases List.mem_append.mp hn with hn | hn
    · exact h.seen n hn
    · exact (Roll.mem_numbers.mp (Roll.mem_of_mem_ended hn)).1
  · rw [hlooks.launches]
    exact hexits
  · rw [hpids, Roll.left_looked hlength, h.pids, List.zip_map_left, List.filter_map, List.map_map,
      List.map_map]
    rfl

/-! ### Waiting -/

/-- Whether a round of a wait goes on or ends, its look is all that reaches the registry. -/
theorem waitRound_looks (host : Host ω) (interval : Nat) (deadline : Option Nat)
    (session : Session σ ω) :
    let state := Sum.elim id Prod.snd (Supervisor.waitRound host.logged interval deadline
      (session.supervisor, session.shared, session.machine))
    state.1 = (session.poll host).supervisor ∧ state.2.1 = (session.poll host).shared := by
  have hafter : session.poll host =
      session.withState (session.supervisor.poll host.logged session.shared session.machine).2 :=
    rfl
  rw [hafter]
  simp only [Supervisor.waitRound]
  generalize session.supervisor.poll host.logged session.shared session.machine = r
  obtain ⟨left, supervisor, shared, machine⟩ := r
  cases left with
  | false => exact ⟨rfl, rfl⟩
  | true =>
    cases deadline with
    | none => exact ⟨rfl, rfl⟩
    | some deadline =>
      dsimp only
      split <;> exact ⟨rfl, rfl⟩

theorem keeps_waitRounds (host : Host ω) (interval : Nat) (deadline : Option Nat) (rounds : Nat)
    (h : session.Keeps roll) :
    (session.withState (Sum.elim id Prod.snd
      (iterate (Supervisor.waitRound host.logged interval deadline) rounds
        (session.supervisor, session.shared, session.machine)))).Keeps
      ((session.waitNotices host interval deadline rounds).foldl Roll.note roll) := by
  induction rounds generalizing session roll with
  | zero => exact h
  | succ rounds ih =>
    obtain ⟨hsupervisor, hshared⟩ := waitRound_looks host interval deadline session
    have hlooked := keeps_poll h host
    rw [iterate, waitNotices, List.foldl_cons]
    generalize Supervisor.waitRound host.logged interval deadline _ = result
      at hsupervisor hshared ⊢
    cases result with
    | inr answer => exact hlooked.of_eq hsupervisor (congrArg Prod.snd hshared) rfl
    | inl state =>
      have hstate : (session.withState state).Keeps _ :=
        hlooked.of_eq hsupervisor (congrArg Prod.snd hshared) rfl
      exact ih hstate

theorem keeps_wait (h : session.Keeps roll) (host : Host ω) (rounds interval : Nat)
    (maxWait : Option Nat) :
    let action : Action σ ω := .wait rounds interval maxWait
    (session.act host action).Keeps ((session.notices host action).foldl Roll.note roll) := by
  have hwait : session.act host (.wait rounds interval maxWait) =
      session.withState (session.supervisor.wait host.logged rounds interval maxWait session.shared
        session.machine).2 := rfl
  have hread : { session with
      machine := (Supervisor.waitDeadline host.logged maxWait session.machine).2 }.Keeps roll :=
    h.of_eq rfl rfl rfl
  simp only [hwait, snd_wait, notices]
  exact keeps_waitRounds host interval _ rounds hread

/-- A wait that ends says whether all children have left. -/
theorem isEmpty_of_wait {τ : Type} {host : Host ω} {rounds interval : Nat} {maxWait : Option Nat}
    {supervisor : Supervisor τ} {s : τ} {w : ω} {finished : Bool} {after : Supervisor τ × τ × ω}
    (h : supervisor.wait host rounds interval maxWait s w = (some finished, after)) :
    after.1.isEmpty = finished := by
  simp only [Supervisor.wait] at h
  split at h
  · cases h
  · next hloop =>
    cases h
    obtain ⟨-, -, ⟨before, s', w'⟩, -, hround⟩ := exists_last_of_iterate hloop
    have hleft : (before.poll host s' w').1 = !(before.poll host s' w').2.1.isEmpty := rfl
    simp only [Supervisor.waitRound] at hround
    generalize before.poll host s' w' = r at hround hleft
    obtain ⟨left, supervisor', s'', w''⟩ := r
    cases left with
    | false =>
      cases hround
      rwa [eq_comm, Bool.not_eq_false'] at hleft
    | true =>
      dsimp only at hround
      split at hround
      · cases hround
      · split at hround <;> cases hround
        rwa [eq_comm, Bool.not_eq_true'] at hleft

/-! ### Every action -/

/-- A child that is left, as the registry has it: neither has its exit been recorded nor has any
callback been told of it. -/
structure Registered (session : Session σ ω) (p : Pid × Nat) (entry : Entry (σ × Trace)) :
    Prop where
  pid : entry.child.pid = p.1
  status : entry.child.status = none
  finished : entry.finished = false
  silent : hasExit (session.firings p.2) = false

structure Holds (session : Session σ ω) (roll : Roll) : Prop where
  registered : List.Forall₂ session.Registered roll.left session.supervisor.entries
  pids : session.supervisor.pids = roll.left.map Prod.fst
  size : session.supervisor.size = roll.left.length
  isEmpty : session.supervisor.isEmpty = roll.left.isEmpty
  hasRunningChildren : session.supervisor.hasRunningChildren = !roll.left.isEmpty
  launches : roll.launched.length = session.launches
  seen : ∀ n, n ∈ roll.seen ↔ n < session.launches ∧ hasExit (session.firings n) = true

def Registers (host : Host ω) (before : Session σ ω) : Action σ ω → Prop
  | .launch executable args options callbacks kill =>
    let (result, after) := before.launch host executable args options callbacks kill
    match result with
    | .ok pid => ∃ entry, entry.child.pid = pid ∧
        after.supervisor.entries = before.supervisor.entries ++ [entry]
    | .error _ => after.supervisor = before.supervisor ∧ after.shared = before.shared
  | .poll =>
    (before.answers host).length = before.supervisor.size ∧
      asked (before.poll host).machine.2 =
        asked before.machine.2 ++ before.supervisor.pids.zip (before.answers host) ∧
      (before.poll host).supervisor.pids =
        ((before.supervisor.pids.zip (before.answers host)).filter
          (·.2.status?.isNone)).map Prod.fst ∧
      (before.supervisor.poll host.logged before.shared before.machine).1 =
        !(before.poll host).supervisor.isEmpty
  | .wait rounds interval maxWait => ∀ finished,
    (before.supervisor.wait host.logged rounds interval maxWait before.shared before.machine).1 =
        some finished →
      (before.act host (.wait rounds interval maxWait)).supervisor.isEmpty = finished
  | .signalAll signal =>
    (before.act host (.signalAll signal)).supervisor = before.supervisor ∧
      (before.act host (.signalAll signal)).shared = before.shared
  | action =>
    (before.act host action).supervisor = before.supervisor ∧
      (before.act host action).shared.2 = before.shared.2

theorem keeps_act (h : session.Keeps roll) (host : Host ω) (action : Action σ ω) :
    (session.act host action).Keeps ((session.notices host action).foldl Roll.note roll) := by
  cases action with
  | launch executable args options callbacks kill => exact keeps_launch h host ..
  | poll => exact keeps_poll h host
  | wait rounds interval maxWait => exact keeps_wait h host rounds interval maxWait
  | signalAll | sleep | clock | elsewhere => exact h.of_eq rfl rfl rfl

theorem keeps_run (h : session.Keeps roll) (host : Host ω) (actions : List (Action σ ω)) :
    (session.run host actions).Keeps ((session.history host actions).foldl Roll.note roll) := by
  induction actions generalizing session roll with
  | nil => exact h
  | cons action actions ih =>
    rw [history, List.foldl_append]
    exact ih (keeps_act h host action)

theorem registers (h : session.Valid) (host : Host ω) (action : Action σ ω) :
    session.Registers host action := by
  cases action with
  | launch executable args options callbacks kill => exact launch_registers host session ..
  | poll =>
    obtain ⟨hlength, hasked, hpids⟩ := poll_leaves h host
    exact ⟨hlength, hasked, hpids, rfl⟩
  | wait rounds interval maxWait =>
    intro finished hfinished
    exact isEmpty_of_wait (Prod.ext hfinished rfl)
  | signalAll | sleep | clock | elsewhere => exact ⟨rfl, rfl⟩

theorem forall₂_registered {ps : List (Pid × Nat)} {entries : List (Entry (σ × Trace))}
    (hattends : List.Forall₂ Attends (ps.map Prod.snd) entries)
    (hpids : entries.map (·.child.pid) = ps.map Prod.fst)
    (hsilent : ∀ p ∈ ps, hasExit (session.firings p.2) = false) :
    List.Forall₂ session.Registered ps entries := by
  rw [List.forall₂_map_left_iff] at hattends
  induction hattends with
  | nil => exact .nil
  | cons hentry _ ih =>
    obtain ⟨hpid, hpids⟩ := List.cons.inj hpids
    obtain ⟨hp, hsilent⟩ := List.forall_mem_cons.mp hsilent
    exact .cons ⟨hpid, hentry.status, hentry.finished, hp⟩ (ih hpids hsilent)

theorem Keeps.holds (h : session.Keeps roll) : session.Holds roll := by
  have hempty : session.supervisor.isEmpty = roll.left.isEmpty := by
    rw [Supervisor.isEmpty, Bool.eq_iff_iff, List.isEmpty_iff_length_eq_zero, h.length,
      List.isEmpty_iff_length_eq_zero]
  have hrunning := h.running
  refine ⟨?_, h.pids, h.length, hempty, congrArg (!·) hempty, h.launches.symm, ?_⟩
  · refine forall₂_registered (hrunning ▸ h.valid.attends) h.pids ?_
    intro p hp
    exact (mem_running.mp (hrunning ▸ List.mem_map_of_mem hp)).2
  · intro n
    refine ⟨fun hseen => ?_, fun ⟨hn, hexit⟩ => ?_⟩
    · have hn : n < session.launches := h.launches ▸ h.seen n hseen
      exact ⟨hn, by rw [h.exits n hn, decide_eq_true hseen]⟩
    · rw [h.exits n hn] at hexit
      exact of_decide_eq_true hexit

/-- **Whatever a caller does, the registry holds the children that were launched and whose exit no
look has seen**, in the order of their launch.  No exit of a child that it holds has been recorded
or handed over.  A launch that fails changes nothing, and a signal to all neither; a look takes away
the children whose exit it sees, and tells whether any are left. -/
theorem registry_of_run (host : Host ω) (s : σ) (w : ω) (actions : List (Action σ ω)) :
    ((start s w).run host actions).Holds
        (((start s w).history host actions).foldl Roll.note {}) ∧
      ∀ action, ((start s w).run host actions).Registers host action := by
  have hkeeps := keeps_run (keeps_start s w) host actions
  exact ⟨hkeeps.holds, registers hkeeps.valid host⟩

end Session

end Chaperone
