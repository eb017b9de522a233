import Chaperone.Proofs.Supervise.Chronicle
import Chaperone.Proofs.Supervisor.Waiting

/-!
# What a run tells of its programs

While a plan is carried out, each of its programs is waiting for its launch, could not be launched,
is playing, or has ended (`Stage`).  A look or a signal deals with the programs that are playing one
after the other (`Deals`); what it does with one of them is told by the chronicle of that program
and does not concern the others.

* `Stage.deals`: whatever deals with the programs in turn goes on with the stage.
* `Stage.launchAll`, `Stage.wait`, `Stage.signalAll`: so does every part of the run.
* `courses_of_run`: in the end the events of each program and its outcome say the same.
-/

namespace Chaperone

/-! ### The registry that is given up -/

namespace Supervisor

variable {σ ω : Type}

/-- A registry that is given up releases pipes and does nothing else. -/
theorem closes_release (host : Host ω) (supervisor : Supervisor σ) (w : ω × Log) :
    Only (fun call => ∃ d, call = .close d) w (supervisor.release host.logged w) := by
  have hclose (pipes : List Descriptor) (w : ω × Log) :
      Only (fun call => ∃ d, call = .close d) w
        (pipes.foldl (fun w d => host.logged.close d w) w) := by
    induction pipes generalizing w with
    | nil => exact .refl _ _
    | cons d rest ih => exact .trans (.one (.close d) ⟨d, rfl⟩ rfl) (ih _)
  obtain ⟨entries⟩ := supervisor
  rw [release]
  induction entries generalizing w with
  | nil => exact .refl _ _
  | cons entry rest ih => exact .trans (hclose _ w) (ih _)

end Supervisor

namespace Supervise

variable {ω : Type} {host : Host ω} {format : Format}

/-! ### Programs that are dealt with in turn -/

def Moves (host : Host ω) (format : Format)
    (m m' : Entry (Record Ledger) × Record Ledger × ω × Log) : Prop :=
  ∀ place program own, Playing host format place program own m.2.1 m.1 →
    ∃ calls, m'.2.2.2 = m.2.2.2 ++ calls ∧ Aside place m.2.1 m'.2.1 ∧
      Fares host format place program (own ++ calls) m'.2.1 m'.1

inductive Deals (host : Host ω) (format : Format) :
    List (Entry (Record Ledger)) × Record Ledger × ω × Log →
      List (Entry (Record Ledger)) × Record Ledger × ω × Log → Prop where
  | nil (m : Record Ledger × ω × Log) : Deals host format ([], m) ([], m)
  | cons {entry entry' : Entry (Record Ledger)} {entries entries' : List (Entry (Record Ledger))}
      {m m' m'' : Record Ledger × ω × Log} (h : Moves host format (entry, m) (entry', m'))
      (hrest : Deals host format (entries, m') (entries', m'')) :
      Deals host format (entry :: entries, m) (entry' :: entries', m'')

theorem deals_pollAll (host : Host ω) (format : Format) (entries : List (Entry (Record Ledger)))
    (record : Record Ledger) (w : ω × Log) :
    Deals host format (entries, record, w) (Supervisor.pollAll host.logged entries record w) := by
  induction entries generalizing record w with
  | nil => exact .nil _
  | cons entry rest ih => exact .cons (fun _ _ _ h => h.poll w rfl) (ih ..)

theorem deals_signalEach (host : Host ω) (format : Format) (signal : Signal)
    (entries : List (Entry (Record Ledger))) (record : Record Ledger) (w : ω × Log) :
    Deals host format (entries, record, w)
      (entries, record, Supervisor.signalEach host.logged signal entries w) := by
  induction entries generalizing w with
  | nil => exact .nil _
  | cons entry rest ih =>
    refine .cons ?_ (ih _)
    intro place program own h
    obtain ⟨calls, hcalls, hplaying⟩ := h.signal signal w
    exact ⟨calls, hcalls, .refl _ _, Or.inl hplaying⟩

def Plays (host : Host ω) (format : Format) (programs : List Program) (book : Book)
    (record : Record Ledger) (place : Nat) (entry : Entry (Record Ledger)) : Prop :=
  ∃ program, programs[place]? = some program ∧
    Playing host format place program (book.own place) record entry

/-- Calls for one program are not those of another. -/
theorem own_append_of_ne (book : Book) (calls : Log) {place other : Nat} (h : other ≠ place) :
    Book.own (book ++ .of (some place) calls) other = book.own other := by
  have howner : some place ≠ some other := fun hsome => h (Option.some.inj hsome).symm
  rw [Book.own_append, Book.own_of_ne howner, List.append_nil]

/-- What is done with one program leaves the others playing. -/
theorem plays_aside {programs : List Program} {book : Book} {record record' : Record Ledger}
    {places : List Nat} {entries : List (Entry (Record Ledger))}
    (h : List.Forall₂ (Plays host format programs book record) places entries) {place : Nat}
    (hplace : place ∉ places) (haside : Aside place record record') (calls : Log) :
    List.Forall₂ (Plays host format programs (book ++ .of (some place) calls) record') places
      entries := by
  have hne : ∀ other ∈ places, other ≠ place := by
    rintro other hother rfl
    exact hplace hother
  refine List.Forall₂.imp ?_ ((List.forall₂_and_left _ _).mpr ⟨hne, h⟩)
  rintro other entry ⟨hother, program, hprogram, hplaying⟩
  refine ⟨program, hprogram, ?_⟩
  rw [own_append_of_ne book calls hother]
  exact hplaying.congr (haside.events other hother) (haside.exits other hother)

/-- Dealing with programs in turn adds to the calls and the events of each, and to no others. -/
theorem Deals.account {m m' : List (Entry (Record Ledger)) × Record Ledger × ω × Log}
    (h : Deals host format m m') {programs : List Program} {places : List Nat} {book : Book}
    (hplaces : places.Nodup)
    (hplays : List.Forall₂ (Plays host format programs book m.2.1) places m.1)
    (hlog : book.log = m.2.2.2) :
    ∃ more : Book, Book.log (book ++ more) = m'.2.2.2 ∧
      (∀ p ∈ more, ∃ place ∈ places, p.1 = some place) ∧
      (∀ place ∉ places, m'.2.1.kept.own place = m.2.1.kept.own place ∧
        m'.2.1.exits.lookup place = m.2.1.exits.lookup place) ∧
      List.Forall₂ (fun place entry => ∃ program, programs[place]? = some program ∧
        Fares host format place program (Book.own (book ++ more) place) m'.2.1 entry)
        places m'.1 := by
  induction h generalizing places book with
  | nil m =>
    cases hplays
    exact ⟨[], by rw [List.append_nil, hlog], by simp, fun _ _ => ⟨rfl, rfl⟩, .nil⟩
  | @cons entry entry' entries entries' m m' m'' hmoves hdeals ih =>
    cases hplays with
    | @cons place _ places _ hplay hrest =>
    obtain ⟨hplace, hplaces⟩ := List.nodup_cons.mp hplaces
    obtain ⟨program, hprogram, hplaying⟩ := hplay
    obtain ⟨calls, hcalls, haside, hfares⟩ := hmoves place program _ hplaying
    have hown : Book.own (book ++ .of (some place) calls) place = book.own place ++ calls := by simp
    have hmoved := plays_aside hrest hplace haside calls
    obtain ⟨more, hlog', howners, hothers, hafter⟩ := ih hplaces hmoved
      (by rw [Book.log_append, Book.log_of, hlog]; exact hcalls.symm)
    have hnone : Book.own more place = [] := Book.own_eq_nil_of_not_mem hplace howners
    rw [List.append_assoc] at hlog' hafter
    refine ⟨.of (some place) calls ++ more, hlog', ?_, ?_, .cons ⟨program, hprogram, ?_⟩ hafter⟩
    · intro p hp
      rcases List.mem_append.mp hp with hp | hp
      · obtain ⟨call, -, rfl⟩ := List.mem_map.mp hp
        exact ⟨place, List.mem_cons_self, rfl⟩
      · obtain ⟨other, hother, hpo⟩ := howners p hp
        exact ⟨other, List.mem_cons_of_mem _ hother, hpo⟩
    · intro other hother
      rw [List.mem_cons, not_or] at hother
      obtain ⟨hne, hnotin⟩ := hother
      obtain ⟨hevents, hexits⟩ := hothers other hnotin
      exact ⟨hevents.trans (haside.events other hne), hexits.trans (haside.exits other hne)⟩
    · obtain ⟨hevents, hexits⟩ := hothers place hplace
      rw [← List.append_assoc, Book.own_append, hnone, List.append_nil, hown]
      exact hfares.congr hevents hexits

/-! ### The stage -/

/-- What is known of a program that is not playing, from the result of its launch if there was one,
the calls that were made for it, its events and its exit. -/
inductive Fate (host : Host ω) (format : Format) :
    Option Program → Option (Option Error) → Log → List Event → Option ExitStatus → Prop where
  | waiting (program : Option Program) : Fate host format program none [] [] none
  | failed {program : Program} {cause : SpawnError} {own : Log}
      (h : program.Refused host cause own) (timestamp : String) :
      Fate host format (some program) (some (some (.spawn cause))) own
        [⟨program.name, .spawnFailed (Error.spawn cause).message, timestamp⟩] none
  | ended {program : Program} {own : Log} {status : ExitStatus} {events : List Event}
      (h : Course host format program own (some status) events) :
      Fate host format (some program) (some none) own events (some status)

/-- A plan that is carried out: of the first of its programs `failures` says how their launches
went.  The book says for which program each call was made; what reads from a pipe was made for
one. -/
structure Stage (host : Host ω) (format : Format) (programs : List Program)
    (failures : List (Option Error)) (book : Book) (entries : List (Entry (Record Ledger)))
    (record : Record Ledger) (w : ω × Log) : Prop where
  log : book.log = w.2
  owned : ∀ p ∈ book, p.1 = none → ∀ pipe, p.2.payload pipe = []
  programs : ∃ places : List Nat, places.Nodup ∧
    List.Forall₂ (Plays host format programs book record) places entries ∧
    (∀ place ∈ places, failures[place]? = some none) ∧
    ∀ place ∉ places, Fate host format programs[place]? failures[place]? (book.own place)
      (record.kept.own place) (record.exits.lookup place)

namespace Stage

variable {programs : List Program} {failures : List (Option Error)} {book : Book}
  {entries : List (Entry (Record Ledger))} {record : Record Ledger} {w w' : ω × Log}

theorem start (host : Host ω) (format : Format) (programs : List Program) (w : ω) :
    Stage host format programs [] [] [] { kept := [] } (w, []) :=
  ⟨rfl, by simp, [], .nil, .nil, by simp, fun _ _ => .waiting _⟩

/-- Calls that concern no program and read nothing change nothing. -/
theorem quiet (h : Stage host format programs failures book entries record w) {P : Call → Prop}
    (hw : Only P w w') (hP : ∀ call, P call → ∀ pipe, call.payload pipe = []) :
    ∃ book', Stage host format programs failures book' entries record w' := by
  obtain ⟨hlog, howned, places, hplaces, hplays, hlaunched, hfates⟩ := h
  obtain ⟨calls, hcalls, hall⟩ := hw
  have hown (place : Nat) : Book.own (book ++ .of none calls) place = book.own place := by
    rw [Book.own_append, Book.own_of_ne (by simp), List.append_nil]
  refine ⟨book ++ .of none calls, ?_, ?_, places, hplaces, ?_, hlaunched, ?_⟩
  · rw [Book.log_append, Book.log_of, hlog, hcalls]
  · intro p hp hnone pipe
    rcases List.mem_append.mp hp with hp | hp
    · exact howned p hp hnone pipe
    · obtain ⟨call, hcall, rfl⟩ := List.mem_map.mp hp
      exact hP call (hall call hcall) pipe
  · refine hplays.imp ?_
    rintro place entry ⟨program, hprogram, hplaying⟩
    exact ⟨program, hprogram, by rwa [hown]⟩
  · intro place hplace
    rw [hown]
    exact hfates place hplace

theorem finished (h : Stage host format programs failures book entries record w) :
    ∀ entry ∈ entries, entry.finished = false := by
  obtain ⟨-, -, places, -, hplays, -, -⟩ := h
  intro entry hentry
  obtain ⟨place, program, -, hplaying⟩ := Session.exists_of_forall₂ hplays.flip hentry
  exact hplaying.finished

/-- **Dealing with the programs in turn goes on with the stage.**  Those that have ended leave. -/
theorem deals (h : Stage host format programs failures book entries record w)
    {m : List (Entry (Record Ledger)) × Record Ledger × ω × Log}
    (hdeals : Deals host format (entries, record, w) m) :
    ∃ book', Stage host format programs failures book'
      (m.1.filter fun entry => !entry.finished) m.2.1 m.2.2 := by
  obtain ⟨hlog, howned, places, hplaces, hplays, hlaunched, hfates⟩ := h
  obtain ⟨more, hlog', howners, hothers, hafter⟩ := hdeals.account hplaces hplays hlog
  refine ⟨book ++ more, hlog', ?_, places.filter fun place => (m.2.1.exits.lookup place).isNone,
    hplaces.filter _, ?_, ?_, ?_⟩
  · intro p hp hnone pipe
    rcases List.mem_append.mp hp with hp | hp
    · exact howned p hp hnone pipe
    · obtain ⟨place, -, hplace⟩ := howners p hp
      rw [hnone] at hplace
      cases hplace
  · have hleft := List.rel_filter (p := fun place => (m.2.1.exits.lookup place).isNone)
      (q := fun entry => !entry.finished) (fun place entry hentry => by
        obtain ⟨program, -, hplaying | ⟨hfinished, status, hstatus, -⟩⟩ := hentry
        · simp [hplaying.exits, hplaying.finished]
        · simp [hfinished, hstatus]) hafter
    have hnone : ∀ place ∈ places.filter fun place => (m.2.1.exits.lookup place).isNone,
        m.2.1.exits.lookup place = none := by
      intro place hplace
      simpa using (List.mem_filter.mp hplace).2
    refine List.Forall₂.imp ?_ ((List.forall₂_and_left _ _).mpr ⟨hnone, hleft⟩)
    rintro place entry ⟨hlookup, program, hprogram, hplaying | ⟨-, status, hstatus, -⟩⟩
    · exact ⟨program, hprogram, hplaying⟩
    · rw [hlookup] at hstatus
      cases hstatus
  · exact fun place hplace => hlaunched place (List.mem_of_mem_filter hplace)
  · intro place hplace
    by_cases hmem : place ∈ places
    · obtain ⟨entry, program, hprogram, hplaying | ⟨-, status, hstatus, hcourse⟩⟩ :=
        Session.exists_of_forall₂ hafter hmem
      · exact absurd (List.mem_filter.mpr ⟨hmem, by simp [hplaying.exits]⟩) hplace
      · rw [hprogram, hlaunched place hmem, hstatus]
        exact .ended hcourse
    · obtain ⟨hevents, hexits⟩ := hothers place hmem
      have hnone : Book.own more place = [] := Book.own_eq_nil_of_not_mem hmem howners
      rw [Book.own_append, hnone, List.append_nil, hevents, hexits]
      exact hfates place hmem

/-! ### Launching -/

/-- Nothing is known of a program before its launch. -/
theorem untouched (h : Stage host format programs failures book entries record w) {place : Nat}
    (hplace : failures.length ≤ place) :
    book.own place = [] ∧ record.kept.own place = [] ∧ record.exits.lookup place = none := by
  obtain ⟨-, -, places, -, -, hlaunched, hfates⟩ := h
  have hnone : failures[place]? = none := List.getElem?_eq_none hplace
  have hplaces : place ∉ places := by
    intro hmem
    have hsome := hlaunched _ hmem
    rw [hnone] at hsome
    cases hsome
  have hfate := hfates _ hplaces
  rw [hnone] at hfate
  generalize programs[place]? = program, book.own place = own, record.kept.own place = events,
    record.exits.lookup place = exit at hfate ⊢
  cases hfate
  exact ⟨rfl, rfl, rfl⟩

/-- The program that is launched next plays, or its fate is known at once. -/
theorem enter (h : Stage host format programs failures book entries record w) {calls : Log}
    {record' : Record Ledger} {w' : ω × Log} (hcalls : w'.2 = w.2 ++ calls)
    (haside : Aside failures.length record record') {failure : Option Error}
    {new : List (Entry (Record Ledger))}
    (hnew : (∃ entry program, new = [entry] ∧ failure = none ∧
        programs[failures.length]? = some program ∧
        Playing host format failures.length program calls record' entry) ∨
      new = [] ∧ Fate host format programs[failures.length]? (some failure) calls
        (record'.kept.own failures.length) (record'.exits.lookup failures.length)) :
    ∃ book', Stage host format programs (failures ++ [failure]) book' (entries ++ new) record'
      w' := by
  obtain ⟨hempty, -, -⟩ := h.untouched (Nat.le_refl _)
  obtain ⟨hlog, howned, places, hplaces, hplays, hlaunched, hfates⟩ := h
  have hbefore {place : Nat} (hplace : place ∈ places) : place < failures.length :=
    (List.getElem?_eq_some_iff.mp (hlaunched place hplace)).1
  have hown : Book.own (book ++ .of (some failures.length) calls) failures.length = calls := by
    simp [hempty]
  have hfailure : (failures ++ [failure])[failures.length]? = some failure := by simp
  have hfailure_of_ne {place : Nat} (hne : place ≠ failures.length) :
      (failures ++ [failure])[place]? = failures[place]? := by
    rcases Nat.lt_or_gt_of_ne hne with hlt | hgt
    · exact List.getElem?_append_left hlt
    · rw [List.getElem?_eq_none (Nat.le_of_lt hgt), List.getElem?_eq_none]
      rw [List.length_append]
      exact hgt
  have hnext : failures.length ∉ places := fun hmem => Nat.lt_irrefl _ (hbefore hmem)
  have hold := plays_aside hplays hnext haside calls
  have hothers {place : Nat} (hplace : place ∉ places) (hne : place ≠ failures.length) :
      Fate host format programs[place]? (failures ++ [failure])[place]?
        (Book.own (book ++ .of (some failures.length) calls) place)
        (record'.kept.own place) (record'.exits.lookup place) := by
    rw [hfailure_of_ne hne, own_append_of_ne book calls hne, haside.events place hne,
      haside.exits place hne]
    exact hfates place hplace
  refine ⟨book ++ .of (some failures.length) calls, ?_, ?_, ?_⟩
  · rw [Book.log_append, Book.log_of, hlog, hcalls]
  · intro p hp hnone pipe
    rcases List.mem_append.mp hp with hp | hp
    · exact howned p hp hnone pipe
    · obtain ⟨call, -, rfl⟩ := List.mem_map.mp hp
      cases hnone
  · rcases hnew with ⟨entry, program, rfl, rfl, hprogram, hplaying⟩ | ⟨rfl, hfate⟩
    · refine ⟨places ++ [failures.length], ?_, List.rel_append hold (.cons ?_ .nil), ?_, ?_⟩
      · refine List.Nodup.append hplaces (List.nodup_singleton _) ?_
        intro place hplace hlast
        exact hnext (List.mem_singleton.mp hlast ▸ hplace)
      · exact ⟨program, hprogram, by rwa [hown]⟩
      · intro place hplace
        rcases List.mem_append.mp hplace with hplace | hplace
        · rw [hfailure_of_ne (Nat.ne_of_lt (hbefore hplace)), hlaunched place hplace]
        · rw [List.mem_singleton.mp hplace, hfailure]
      · intro place hplace
        rw [List.mem_append, List.mem_singleton, not_or] at hplace
        exact hothers hplace.1 hplace.2
    · rw [List.append_nil]
      refine ⟨places, hplaces, hold, ?_, ?_⟩
      · intro place hplace
        rw [hfailure_of_ne (Nat.ne_of_lt (hbefore hplace)), hlaunched place hplace]
      · intro place hplace
        by_cases hne : place = failures.length
        · rw [hne, hfailure, hown]
          exact hfate
        · exact hothers hplace hne

variable {supervisor : Supervisor (Record Ledger)}

/-- One program is launched; if it cannot be, its failure is reported. -/
theorem launch (h : Stage host format programs failures book supervisor.entries record w)
    {program : Program} (hprogram : programs[failures.length]? = some program)
    {r : Except Error Pid × Supervisor (Record Ledger) × Record Ledger × ω × Log}
    (hr : Supervise.launch host.logged program
      ((Desk.ledger format).callbacks failures.length program) supervisor record w = r) :
    match r.1 with
    | .ok _ => ∃ book', Stage host format programs (failures ++ [none]) book' r.2.1.entries r.2.2.1
        r.2.2.2
    | .error cause => ∀ time, ∃ book', Stage host format programs (failures ++ [some cause]) book'
        r.2.1.entries ((Desk.ledger format).report failures.length program.name
          (.spawnFailed cause.message) time r.2.2.1) r.2.2.2 := by
  obtain ⟨-, hevents, hexits⟩ := h.untouched (Nat.le_refl _)
  rw [launch_eq, Supervisor.launch] at hr
  generalize hspawn : spawn host.logged program.executable program.arguments program.options w =
    spawned at hr
  obtain ⟨result, w'⟩ := spawned
  cases result with
  | error cause =>
    subst hr
    intro time
    obtain ⟨v, log⟩ := w
    rw [spawn_after] at hspawn
    generalize hfirst : spawn host.logged program.executable program.arguments program.options
      (v, []) = tried at hspawn
    obtain ⟨result, w₀⟩ := tried
    obtain ⟨rfl, rfl⟩ := Prod.mk.inj hspawn
    let noted := record.noted failures.length program.name time
      [.spawnFailed (Error.spawn cause).message]
    have hfate : Fate host format programs[failures.length]? (some (some (.spawn cause))) w₀.2
        (noted.kept.own failures.length) (noted.exits.lookup failures.length) := by
      have hnone : noted.exits.lookup failures.length = none := hexits
      rw [hprogram, hnone, Record.own_noted, hevents]
      exact .failed ⟨v, w₀, hfirst, rfl⟩ _
    have hcalls : (w₀.1, log ++ w₀.2).2 = log ++ w₀.2 := rfl
    have hfailed := h.enter hcalls (.noted ..) (Or.inr ⟨rfl, hfate⟩)
    rwa [List.append_nil] at hfailed
  | ok child =>
    simp only [Supervisor.register] at hr
    generalize hm : Entry.launched host.logged child
      ((Desk.ledger format).callbacks failures.length program) false record w' = m at hr
    subst hr
    obtain ⟨calls, hcalls, haside, hplaying⟩ := Playing.launched hspawn hevents hexits hm
    exact h.enter hcalls haside (Or.inl ⟨m.1, program, rfl, rfl, hprogram, hplaying⟩)

/-- All programs are launched, in the order of the plan. -/
theorem launchAll (h : Stage host format programs failures book supervisor.entries record w)
    {place : Nat} (hplace : failures.length = place) {rest : List Program}
    (hrest : programs.drop place = rest)
    {r : List (Option Error) × Supervisor (Record Ledger) × Record Ledger × ω × Log}
    (hr : Supervise.launchAll host.logged (.ledger format) place rest supervisor record w = r) :
    r.1.length = rest.length ∧ ∃ book', Stage host format programs (failures ++ r.1) book'
      r.2.1.entries r.2.2.1 r.2.2.2 := by
  induction rest generalizing failures book supervisor record w place r with
  | nil =>
    subst hr
    refine ⟨rfl, book, ?_⟩
    rwa [Supervise.launchAll, List.append_nil]
  | cons program rest ih =>
    subst hplace
    have hprogram : programs[failures.length]? = some program := by
      rw [← List.head?_drop, hrest]
      rfl
    have hdrop : programs.drop (failures.length + 1) = rest := by
      rw [← List.tail_drop, hrest]
      rfl
    have hlength (failure : Option Error) : (failures ++ [failure]).length = failures.length + 1 :=
      List.length_append
    rw [Supervise.launchAll] at hr
    generalize hl : Supervise.launch host.logged program
      ((Desk.ledger format).callbacks failures.length program) supervisor record w = l at hr
    have hlaunch := h.launch hprogram hl
    obtain ⟨result, supervisor', record', w'⟩ := l
    cases result with
    | ok pid =>
      obtain ⟨book', hstage⟩ := hlaunch
      obtain ⟨hcount, book'', hall⟩ := ih hstage (hlength none) hdrop rfl
      subst hr
      rw [List.append_assoc] at hall
      exact ⟨congrArg Nat.succ hcount, book'', hall⟩
    | error cause =>
      obtain ⟨book', hstage⟩ := hlaunch (host.logged.wallClock w')
      obtain ⟨hcount, book'', hall⟩ := ih hstage (hlength (some cause)) hdrop rfl
      subst hr
      rw [List.append_assoc] at hall
      exact ⟨congrArg Nat.succ hcount, book'', hall⟩

/-! ### The rest of the run -/

theorem poll (h : Stage host format programs failures book supervisor.entries record w) :
    let r := supervisor.poll host.logged record w
    ∃ book', Stage host format programs failures book' r.2.1.entries r.2.2.1 r.2.2.2 :=
  h.deals (deals_pollAll host format supervisor.entries record w)

theorem wait (h : Stage host format programs failures book supervisor.entries record w)
    (fuel interval : Nat) (maxWait : Option Nat) :
    let r := supervisor.wait host.logged fuel interval maxWait record w
    ∃ book', Stage host format programs failures book' r.2.1.entries r.2.2.1 r.2.2.2 := by
  let P (state : Supervisor (Record Ledger) × Record Ledger × ω × Log) : Prop :=
    ∃ book', Stage host format programs failures book' state.1.entries state.2.1 state.2.2
  have hkeeps : Supervisor.Keeps host.logged P := by
    refine ⟨?_, ?_, ?_⟩
    · rintro supervisor record w ⟨book, h⟩
      exact h.poll
    · rintro supervisor record w time ⟨book, h⟩
      exact h.quiet (.one (.sleep time) trivial rfl) fun _ hcall => Call.Waits.payload hcall
    · rintro supervisor record w ⟨book, h⟩
      exact h.quiet (.one (.now _) trivial rfl) fun _ hcall => Call.Waits.payload hcall
  exact hkeeps.wait fuel interval maxWait ⟨book, h⟩

theorem signalAll (h : Stage host format programs failures book supervisor.entries record w)
    (signal : Signal) :
    ∃ book', Stage host format programs failures book' supervisor.entries record
      (supervisor.signalAll host.logged signal w) := by
  have hdeals := h.deals (deals_signalEach host format signal supervisor.entries record w)
  have hall : supervisor.entries.filter (fun entry => !entry.finished) = supervisor.entries := by
    refine List.filter_eq_self.mpr fun entry hentry => ?_
    rw [h.finished entry hentry]
    rfl
  rwa [hall] at hdeals

theorem release (h : Stage host format programs failures book supervisor.entries record w) :
    ∃ book', Stage host format programs failures book' supervisor.entries record
      (supervisor.release host.logged w) := by
  refine h.quiet (supervisor.closes_release host w) ?_
  rintro _ ⟨d, rfl⟩ pipe
  rfl

end Stage

theorem outcomes_getElem? (exits : List (Nat × ExitStatus)) (first : Nat) {programs : List Program}
    {failures : List (Option Error)} {place : Nat} {program : Program} {failure : Option Error}
    (hprogram : programs[place]? = some program) (hfailure : failures[place]? = some failure) :
    (outcomes exits first programs failures)[place]? =
      some (program.name, outcome exits (first + place) failure) := by
  induction programs generalizing first failures place with
  | nil => cases hprogram
  | cons head programs ih =>
    cases failures with
    | nil => cases hfailure
    | cons failed failures =>
      cases place with
      | zero =>
        cases hprogram
        cases hfailure
        rfl
      | succ place =>
        have hplace : first + (place + 1) = first + 1 + place := by omega
        rw [hplace]
        exact ih (first + 1) hprogram hfailure

/-- The events of a program and its outcome, which say the same. -/
inductive Agrees (host : Host ω) (format : Format) (program : Program) (own : Log) :
    List Event → Outcome → Prop where
  | failed {cause : SpawnError} (h : program.Refused host cause own) (timestamp : String) :
      Agrees host format program own
        [⟨program.name, .spawnFailed (Error.spawn cause).message, timestamp⟩]
        (.failedToStart (Error.spawn cause).message)
  | abandoned {events : List Event} (h : Course host format program own none events) :
      Agrees host format program own events .abandoned
  | exited {events : List Event} {status : ExitStatus}
      (h : Course host format program own (some status) events) :
      Agrees host format program own events (.exited status)

theorem Stage.agrees {programs : List Program} {failures : List (Option Error)} {book : Book}
    {entries : List (Entry (Record Ledger))} {record : Record Ledger} {w : ω × Log}
    (h : Stage host format programs failures book entries record w) {place : Nat}
    {program : Program} {failure : Option Error} (hprogram : programs[place]? = some program)
    (hfailure : failures[place]? = some failure) :
    Agrees host format program (book.own place) (record.kept.own place)
      (outcome record.exits place failure) := by
  obtain ⟨-, -, places, -, hplays, hlaunched, hfates⟩ := h
  by_cases hplace : place ∈ places
  · obtain ⟨entry, program', hprogram', hplaying⟩ := Session.exists_of_forall₂ hplays hplace
    obtain rfl := Option.some.inj (hprogram'.symm.trans hprogram)
    obtain rfl := Option.some.inj (hfailure.symm.trans (hlaunched place hplace))
    rw [outcome, hplaying.exits]
    exact .abandoned hplaying.course
  · have hfate := hfates place hplace
    rw [hprogram, hfailure] at hfate
    generalize record.kept.own place = events, hexit : record.exits.lookup place = exit at hfate ⊢
    cases hfate with
    | failed hrefused timestamp => exact .failed hrefused timestamp
    | ended hcourse =>
      rw [outcome, hexit]
      exact .exited hcourse

/-- An exit is told of if the outcome says that there was one. -/
theorem Agrees.exited_iff {program : Program} {own : Log} {events : List Event} {outcome : Outcome}
    (h : Agrees host format program own events outcome) (status : ExitStatus) :
    outcome = .exited status ↔ ∃ event ∈ events, ∃ pid, event.happening = .exited pid status := by
  cases h with
  | failed hrefused timestamp => simp
  | abandoned hcourse =>
    obtain ⟨child, last, contents, -, -, -, htells, -⟩ := hcourse
    rw [htells.exited_iff]
    simp
  | exited hcourse =>
    obtain ⟨child, last, contents, -, -, -, htells, -⟩ := hcourse
    rw [htells.exited_iff, Option.some_inj, Outcome.exited.injEq]

/-- A program of which an exit is told has run its course. -/
theorem Agrees.course {program : Program} {own : Log} {events : List Event} {outcome : Outcome}
    (h : Agrees host format program own events outcome) {event : Event} (hevent : event ∈ events)
    {pid : Pid} {status : ExitStatus} (hexited : event.happening = .exited pid status) :
    Course host format program own (some status) events := by
  obtain rfl := (h.exited_iff status).mpr ⟨event, hevent, pid, hexited⟩
  cases h with
  | exited hcourse => exact hcourse

end Supervise

end Chaperone
