import Chaperone.Proofs.Child.Signals
import Chaperone.Proofs.Supervisor.Look
import Chaperone.Proofs.Supervisor.Session
import Chaperone.Run

/-!
# No signal after the exit

Callbacks, runs of single programs and supervisors deal with a child by nothing but its operations.
So the calls that any of them makes for a child go on as they should (`Minds`).

A supervisor deals with many children in turn, whose numbers may be the same if the system gives a
number out again.  A `Book` says of every call of a session for which child it was made;
`Booked` says that those that were made for one child make sense on their own: they begin with its
start, all questions are about it, all signals go to it, and no signal follows when an answer has
reported its end.
-/

namespace Chaperone

variable {σ ω : Type}

/-! ### Callbacks -/

theorem Script.minds_run {α : Type} (host : Host ω) (script : Script α) (child : Child)
    (w : ω × Log) : Minds (child, w) (script.run host.logged child w).2 := by
  induction script generalizing child w with
  | done value => exact .refl _
  | write text close next ih => exact (Child.minds_write host child w _ close).trans (ih _ _ _)
  | closeStdin next ih => exact (Child.minds_closeStdin host child w).trans (ih _ _)
  | signal s next ih => exact (Child.minds_signal host child w s).trans (ih _ _ _)

namespace Entry

def Heeds (m m' : Entry σ × σ × ω × Log) : Prop := Minds (m.1.child, m.2.2) (m'.1.child, m'.2.2)

theorem Heeds.trans {m m' m'' : Entry σ × σ × ω × Log} (h : Heeds m m') (g : Heeds m' m'') :
    Heeds m m'' := Minds.trans h g

variable (host : Host ω) (entry : Entry σ) (s : σ) (w : ω × Log)

theorem minds_launched (child : Child) (callbacks : Callbacks σ) (kill : Bool) :
    let m := launched host.logged child callbacks kill s w
    Minds (child, w) (m.1.child, m.2.2) := by
  simp only [launched]
  split
  · exact .refl _
  · exact Script.minds_run ..

theorem heeds_emit (stream : OutputStream) (text : String) :
    Heeds (entry, s, w) (entry.emit host.logged stream text s w) := by
  simp only [Heeds, emit]
  split
  · exact .refl _
  · split
    · exact .refl _
    · exact Script.minds_run ..

theorem heeds_deliver (stream : OutputStream) :
    Heeds (entry, s, w) (entry.deliver host.logged stream s w) := by
  rw [deliver_eq]
  have hread := entry.child.minds_readStream host w stream
  generalize entry.child.readStream host.logged stream w = read at hread ⊢
  refine Heeds.trans ?_ (heeds_emit host _ s read.2.2.2 stream _)
  simp only [Heeds, child_withDecoder]
  exact hread

theorem heeds_deliverTail (stream : OutputStream) :
    Heeds (entry, s, w) (entry.deliverTail host.logged stream s w) := by
  refine Heeds.trans ?_ (heeds_emit host _ s w stream _)
  simp only [Heeds, child_withDecoder]
  exact .refl _

theorem heeds_flush : Heeds (entry, s, w)
    ((entry.flush host.logged w).1, s, (entry.flush host.logged w).2) := by
  have hflush := entry.child.minds_flushStdin host w
  simp only [Heeds, flush]
  split
  · generalize entry.child.flushStdin host.logged w = r at hflush ⊢
    obtain ⟨result, child, w'⟩ := r
    cases result with
    | ok => exact hflush
    | error cause =>
      dsimp only
      split
      · exact hflush.trans (child.minds_signal host w' .kill)
      · exact hflush
  · exact .refl _

/-- A look is made of calls of the child that go on as they should. -/
theorem parts_heeds (host : Host ω) :
    Parts host.logged (fun m m' : Entry σ × σ × ω × Log => Heeds m m') where
  trans := Heeds.trans
  flush := heeds_flush host
  deliver := heeds_deliver host
  deliverTail := heeds_deliverTail host
  ask entry _ w := entry.child.minds_tryWait host w
  -- Handing over the exit makes no call.
  conclude _ _ _ _ := .refl _

theorem heeds_exchange : Heeds (entry, s, w) (entry.exchange host.logged s w) :=
  (parts_heeds host).exchange entry s w

/-- **One look at a child**, with all its callbacks. -/
theorem heeds_poll : Heeds (entry, s, w) (entry.poll host.logged s w) :=
  (parts_heeds host).poll entry s w

end Entry

/-! ### Runs of single programs -/

namespace Run

variable (host : Host ω) (run : Run) (child : Child) (w : ω × Log)

theorem minds_feed (input : String) : Minds (child, w) (feed host.logged input child w) := by
  have hwrite := child.minds_write host w (Text.Utf8.encode input) true
  simp only [feed]
  split
  · exact child.minds_closeStdin host w
  · generalize child.write host.logged (Text.Utf8.encode input) true w = r at hwrite ⊢
    obtain ⟨result, child', w'⟩ := r
    cases result with
    | ok => exact hwrite
    | error cause => exact hwrite.trans (child'.minds_signal host w' .kill)

theorem minds_flush : Minds (child, w) (flush host.logged child w) := by
  have hflush := child.minds_flushStdin host w
  simp only [flush]
  split
  · generalize child.flushStdin host.logged w = r at hflush ⊢
    obtain ⟨result, child', w'⟩ := r
    cases result with
    | ok => exact hflush
    | error cause => exact hflush.trans (child'.minds_signal host w' .kill)
  · exact .refl _

theorem minds_collect :
    let m := run.collect host.logged w
    Minds (run.child, w) (m.1.child, m.2) :=
  (run.child.minds_readStream host w .stdout).trans (Child.minds_readStream host _ _ .stderr)

def MindsStep (m : Child × ω × Log) : (Run × ω × Log) ⊕ (Except Error RunResult × ω × Log) → Prop
  | .inl (run, w) => Minds m (run.child, w)
  | .inr (_, w) => ∃ child, Minds m (child, w)

theorem minds_awaitEnd : MindsStep (run.child, w) (run.awaitEnd host.logged w) := by
  have hwait := run.child.minds_wait host w
  simp only [awaitEnd]
  generalize run.child.wait host.logged w = r at hwait ⊢
  obtain ⟨result, child, w'⟩ := r
  cases result <;> exact ⟨child, hwait⟩

theorem minds_lookForEnd : MindsStep (run.child, w) (run.lookForEnd host.logged w) := by
  have hlook := run.child.minds_tryWait host w
  simp only [lookForEnd]
  generalize run.child.tryWait host.logged w = r at hlook ⊢
  obtain ⟨result, child, w'⟩ := r
  cases result with
  | error cause => exact ⟨child, hlook⟩
  | ok status =>
    cases status with
    | some status => exact ⟨_, hlook.trans (minds_collect host { run with child } w')⟩
    | none =>
      have hwatch := hlook.trans (child.minds_waitForIo host w' ioWait)
      dsimp only
      generalize child.waitForIo host.logged ioWait w' = r at hwatch ⊢
      obtain ⟨result, w''⟩ := r
      cases result with
      | ok => exact hwatch
      | error cause => exact ⟨child, hwatch⟩

theorem MindsStep.trans {m m' : Child × ω × Log}
    {r : (Run × ω × Log) ⊕ (Except Error RunResult × ω × Log)} (h : Minds m m')
    (g : MindsStep m' r) : MindsStep m r := by
  cases r with
  | inl r => exact h.trans g
  | inr r =>
    obtain ⟨child, hchild⟩ := g
    exact ⟨child, h.trans hchild⟩

theorem minds_round : MindsStep (run.child, w) (round host.logged (run, w)) := by
  have hflush := minds_flush host run.child w
  simp only [round]
  generalize flush host.logged run.child w = flushed at hflush ⊢
  have hcollect := hflush.trans (minds_collect host { run with child := flushed.1 } flushed.2)
  split
  · exact .trans hcollect (minds_awaitEnd host _ _)
  · exact .trans hcollect (minds_lookForEnd host _ _)

theorem minds_rounds (fuel : Nat) :
    MindsStep (run.child, w) (iterate (round host.logged) fuel (run, w)) := by
  induction fuel generalizing run w with
  | zero => exact Minds.refl _
  | succ fuel ih =>
    have hround := minds_round host run w
    simp only [iterate]
    generalize round host.logged (run, w) = r at hround ⊢
    cases r with
    | inl next => exact .trans hround (ih next.1 next.2)
    | inr answer => exact hround

end Run

/-- The calls of a run, if it starts its program, are those of one child. -/
theorem tracks_runProgram (host : Host ω) (fuel : Nat) (executable : String) (args : List String)
    (input : String) (options : LaunchOptions) (w : ω) :
    let log := (runProgram host.logged fuel executable args input options (w, [])).2.2
    (∀ call ∈ log, call.Idle) ∨
      ∃ child, child.leadsGroup = options.detachProcessGroup ∧ Tracks child log := by
  simp only [runProgram]
  generalize hspawn : spawn host.logged executable args options (w, []) = spawned
  obtain ⟨result, w'⟩ := spawned
  cases result with
  | error cause =>
    obtain ⟨calls, hlog, hcalls⟩ := idle_of_spawn hspawn
    refine Or.inl ?_
    rw [hlog]
    exact hcalls
  | ok child =>
    refine Or.inr ?_
    obtain ⟨hgroup, request, launched, hlog, htracks⟩ := Tracks.spawn hspawn
    have hstart : Tracks child w'.2 := by
      rw [hlog]
      exact htracks
    have hdone {child' : Child} {w'' : ω × Log} (h : Minds (child, w') (child', w'')) :
        child'.leadsGroup = options.detachProcessGroup ∧ Tracks child' w''.2 := by
      obtain ⟨-, hgroup', calls, hcalls, hgoes⟩ := h
      refine ⟨hgroup'.trans hgroup, ?_⟩
      have hall := hgoes _ hstart
      rwa [← hcalls] at hall
    have hfeed := Run.minds_feed host child w' input
    dsimp only
    generalize Run.feed host.logged input child w' = fed at hfeed ⊢
    have hrounds := Run.minds_rounds host { child := fed.1 } fed.2 fuel
    generalize iterate (Run.round host.logged) fuel ({ child := fed.1 }, fed.2) = r at hrounds ⊢
    cases r with
    | inl next => exact ⟨next.1.child, hdone (hfeed.trans hrounds)⟩
    | inr answer =>
      obtain ⟨last, hlast⟩ := hrounds
      exact ⟨last, hdone (hfeed.trans hlast)⟩

/-! ### Children that are dealt with in turn -/

inductive Visits : List Child → ω × Log → List Child → ω × Log → Prop where
  | nil (w : ω × Log) : Visits [] w [] w
  | cons {child child' : Child} {children children' : List Child} {w w' w'' : ω × Log}
      (h : Minds (child, w) (child', w')) (hrest : Visits children w' children' w'') :
      Visits (child :: children) w (child' :: children') w''

namespace Supervisor

variable {τ : Type} (host : Host ω)

theorem visits_pollAll (entries : List (Entry τ)) (s : τ) (w : ω × Log) :
    let r := pollAll host.logged entries s w
    Visits (entries.map (·.child)) w (r.1.map (·.child)) r.2.2 := by
  induction entries generalizing s w with
  | nil => exact .nil w
  | cons entry rest ih => exact .cons (Entry.heeds_poll host entry s w) (ih _ _)

theorem visits_signalEach (signal : Signal) (entries : List (Entry τ)) (w : ω × Log) :
    Visits (entries.map (·.child)) w (entries.map (·.child))
      (signalEach host.logged signal entries w) := by
  induction entries generalizing w with
  | nil => exact .nil w
  | cons entry rest ih => exact .cons (entry.child.minds_signal host w signal) (ih _)

end Supervisor

/-! ### Whose calls are whose -/

/-- Calls, each with the number of the child for which it was made, if it was made for one. -/
abbrev Book := List (Option Nat × Call)

namespace Book

def log (book : Book) : Log := book.map Prod.snd

def own (book : Book) (n : Nat) : Log :=
  book.filterMap fun p => if p.1 = some n then some p.2 else none

/-- Calls that were all made for one child, or for none. -/
def of (owner : Option Nat) (calls : Log) : Book := calls.map fun call => (owner, call)

@[simp] theorem log_append (book more : Book) : log (book ++ more) = log book ++ log more :=
  List.map_append

@[simp] theorem own_append (book more : Book) (n : Nat) :
    own (book ++ more) n = own book n ++ own more n := List.filterMap_append

@[simp] theorem log_of (owner : Option Nat) (calls : Log) : log (of owner calls) = calls := by
  simp [log, of, Function.comp_def]

@[simp] theorem own_of_self (n : Nat) (calls : Log) : own (of (some n) calls) n = calls := by
  simp [own, of, List.filterMap_map]

theorem own_eq_nil {book : Book} {n : Nat} (h : ∀ p ∈ book, p.1 ≠ some n) : own book n = [] :=
  List.filterMap_eq_nil_iff.mpr fun p hp => if_neg (h p hp)

/-- Calls that were made for other children. -/
theorem own_eq_nil_of_not_mem {book : Book} {ns : List Nat} {n : Nat} (hn : n ∉ ns)
    (howners : ∀ p ∈ book, ∃ k ∈ ns, p.1 = some k) : own book n = [] := by
  refine own_eq_nil ?_
  intro p hp hpn
  obtain ⟨k, hk, hpk⟩ := howners p hp
  obtain rfl := Option.some.inj (hpk.symm.trans hpn)
  exact hn hk

theorem own_of_ne {owner : Option Nat} {n : Nat} (h : owner ≠ some n) (calls : Log) :
    own (of owner calls) n = [] := by
  refine own_eq_nil ?_
  intro p hp
  obtain ⟨call, -, rfl⟩ := List.mem_map.mp hp
  exact h

end Book

/-- The child `n`, which was launched with these options, as its handle and its calls show it. -/
def Handle (options : List LaunchOptions) (book : Book) (n : Nat) (child : Child) : Prop :=
  ∃ o, options[n]? = some o ∧ child.leadsGroup = o.detachProcessGroup ∧ Tracks child (book.own n)

theorem Handle.congr {options : List LaunchOptions} {book book' : Book} {n : Nat} {child : Child}
    (h : Handle options book n child) (hown : book'.own n = book.own n) :
    Handle options book' n child := by
  obtain ⟨o, ho, hgroup, htracks⟩ := h
  exact ⟨o, ho, hgroup, by rwa [hown]⟩

/-- Dealing with children in turn adds to the calls of each. -/
theorem Visits.book {children children' : List Child} {w w' : ω × Log}
    (h : Visits children w children' w') {options : List LaunchOptions} {book : Book}
    {ns : List Nat} (hns : ns.Nodup) (hhandles : List.Forall₂ (Handle options book) ns children)
    (hlog : book.log = w.2) :
    ∃ more : Book, Book.log (book ++ more) = w'.2 ∧
      List.Forall₂ (Handle options (book ++ more)) ns children' ∧
      ∀ p ∈ more, ∃ n ∈ ns, p.1 = some n := by
  induction h generalizing ns book with
  | nil w =>
    cases hhandles
    exact ⟨[], by rw [List.append_nil, hlog], .nil, by simp⟩
  | @cons child child' children children' w w' w'' hminds hvisits ih =>
    cases hhandles with
    | @cons n _ ns _ hhandle hrest =>
    obtain ⟨hn, hns⟩ := List.nodup_cons.mp hns
    obtain ⟨o, ho, hgroup, htracks⟩ := hhandle
    obtain ⟨-, hgroup', calls, hcalls, hgoes⟩ := hminds
    have hown : Book.own (book ++ .of (some n) calls) n = book.own n ++ calls := by simp
    -- No other child has the number `n`, so the calls leave the books of the others as they were.
    have hmoved : List.Forall₂ (Handle options (book ++ .of (some n) calls)) ns children := by
      have hne : ∀ k ∈ ns, some n ≠ some k := by
        rintro k hk hnk
        obtain rfl := Option.some.inj hnk
        exact hn hk
      refine List.Forall₂.imp ?_ ((List.forall₂_and_left _ _).mpr ⟨hne, hrest⟩)
      rintro k c ⟨hk, hc⟩
      exact hc.congr (by rw [Book.own_append, Book.own_of_ne hk, List.append_nil])
    obtain ⟨more, hlog', hafter, howners⟩ := ih hns hmoved
      (by rw [Book.log_append, Book.log_of, hlog]; exact hcalls.symm)
    have hnone : Book.own more n = [] := Book.own_eq_nil_of_not_mem hn howners
    rw [List.append_assoc] at hlog' hafter
    refine ⟨.of (some n) calls ++ more, hlog', .cons ?_ hafter, ?_⟩
    · refine ⟨o, ho, hgroup'.trans hgroup, ?_⟩
      rw [← List.append_assoc, Book.own_append, hnone, List.append_nil, hown]
      exact hgoes _ htracks
    · intro p hp
      rcases List.mem_append.mp hp with hp | hp
      · obtain ⟨call, -, rfl⟩ := List.mem_map.mp hp
        exact ⟨n, List.mem_cons_self, rfl⟩
      · obtain ⟨k, hk, hpk⟩ := howners p hp
        exact ⟨k, List.mem_cons_of_mem _ hk, hpk⟩

namespace Session

def grants (host : Host ω) (session : Session σ ω) : Action σ ω → List LaunchOptions
  | .launch executable args options callbacks kill =>
    match (session.launch host executable args options callbacks kill).1 with
    | .ok _ => [options]
    | .error _ => []
  | _ => []

def granted (host : Host ω) (session : Session σ ω) : List (Action σ ω) → List LaunchOptions
  | [] => []
  | action :: rest => session.grants host action ++ (session.act host action).granted host rest

theorem granted_append (host : Host ω) (session : Session σ ω) (actions more : List (Action σ ω)) :
    session.granted host (actions ++ more) =
      session.granted host actions ++ (session.run host actions).granted host more := by
  induction actions generalizing session with
  | nil => rfl
  | cons action rest ih =>
    rw [List.cons_append, granted, ih, granted, List.append_assoc]
    rfl

/-- Every call of a session is accounted for: the children of the session were launched with these
options, and the book says which calls were made for which child. -/
structure Booked (session : Session σ ω) (options : List LaunchOptions) (book : Book) : Prop where
  log : book.log = session.machine.2
  launches : session.launches = options.length
  /-- Signals and questions are made for children that were launched. -/
  owned : ∀ p ∈ book, (p.1 = none → p.2.Idle) ∧ ∀ n, p.1 = some n → n < options.length
  /-- The calls of each child make sense on their own. -/
  own : ∀ n < options.length, ∃ child, Handle options book n child
  /-- The registry holds the handles of some of these children. -/
  handles : ∃ ns : List Nat, ns.Nodup ∧
    List.Forall₂ (Handle options book) ns (session.supervisor.entries.map (·.child))

variable {host : Host ω} {session session' : Session σ ω} {options : List LaunchOptions}
  {book : Book}

theorem booked_start (s : σ) (w : ω) : (start s w).Booked [] [] where
  log := rfl
  launches := rfl
  owned := by simp
  own _ h := absurd h (Nat.not_lt_zero _)
  handles := ⟨[], List.nodup_nil, .nil⟩

/-- An action that makes only calls that concern no child. -/
theorem Booked.quiet (h : session.Booked options book)
    (hw : Only Call.Idle session.machine session'.machine)
    (hsupervisor : session'.supervisor = session.supervisor)
    (hlaunches : session'.launches = session.launches) :
    ∃ more, session'.Booked options (book ++ more) := by
  obtain ⟨calls, hlog, hidle⟩ := hw
  have hmoved {n : Nat} {child : Child} (hhandle : Handle options book n child) :
      Handle options (book ++ .of none calls) n child :=
    hhandle.congr (by rw [Book.own_append, Book.own_of_ne (Option.some_ne_none n).symm,
      List.append_nil])
  refine ⟨.of none calls, ?_, hlaunches.trans h.launches, ?_, ?_, ?_⟩
  · rw [Book.log_append, Book.log_of, h.log, hlog]
  · intro p hp
    rcases List.mem_append.mp hp with hp | hp
    · exact h.owned p hp
    · obtain ⟨call, hcall, rfl⟩ := List.mem_map.mp hp
      exact ⟨fun _ => hidle call hcall, nofun⟩
  · intro n hn
    obtain ⟨child, hhandle⟩ := h.own n hn
    exact ⟨child, hmoved hhandle⟩
  · obtain ⟨ns, hns, hhandles⟩ := h.handles
    rw [hsupervisor]
    exact ⟨ns, hns, hhandles.imp fun _ _ => hmoved⟩

/-- Entries that leave the registry take their numbers with them. -/
theorem exists_sublist_forall₂ {α β : Type} {R : α → β → Prop} {as : List α} {bs bs' : List β}
    (h : List.Forall₂ R as bs) (hsub : bs'.Sublist bs) :
    ∃ as' : List α, as'.Sublist as ∧ List.Forall₂ R as' bs' := by
  induction hsub generalizing as with
  | slnil =>
    cases h
    exact ⟨[], .slnil, .nil⟩
  | cons b hsub ih =>
    cases h with
    | cons hab hrest =>
    obtain ⟨as', has, hrest'⟩ := ih hrest
    exact ⟨as', has.cons _, hrest'⟩
  | cons_cons b hsub ih =>
    cases h with
    | cons hab hrest =>
    obtain ⟨as', has, hrest'⟩ := ih hrest
    exact ⟨_, has.cons_cons _, .cons hab hrest'⟩

/-- Dealing with the children of the registry in turn, after which some of them may leave it. -/
theorem Booked.visits (h : session.Booked options book) {children : List Child}
    (hvisits : Visits (session.supervisor.entries.map (·.child)) session.machine children
      session'.machine)
    (hleft : (session'.supervisor.entries.map (·.child)).Sublist children)
    (hlaunches : session'.launches = session.launches) :
    ∃ more, session'.Booked options (book ++ more) := by
  obtain ⟨ns, hns, hhandles⟩ := h.handles
  obtain ⟨more, hlog, hafter, howners⟩ := hvisits.book hns hhandles h.log
  obtain ⟨ns', hsub, hleft⟩ := exists_sublist_forall₂ hafter hleft
  -- A handle has options, so its number is that of a child that was launched.
  have hbound : ∀ n ∈ ns, n < options.length := by
    intro n hn
    obtain ⟨child, o, ho, -⟩ := exists_of_forall₂ hhandles hn
    exact (List.getElem?_eq_some_iff.mp ho).1
  refine ⟨more, hlog, hlaunches.trans h.launches, ?_, ?_, ns', hns.sublist hsub, hleft⟩
  · intro p hp
    rcases List.mem_append.mp hp with hp | hp
    · exact h.owned p hp
    · obtain ⟨n, hn, hpn⟩ := howners p hp
      refine ⟨fun hnone => ?_, fun k hk => ?_⟩
      · cases hpn.symm.trans hnone
      · obtain rfl := Option.some.inj (hpn.symm.trans hk)
        exact hbound n hn
  · intro n hn
    by_cases hmem : n ∈ ns
    · exact exists_of_forall₂ hafter hmem
    · obtain ⟨child, hhandle⟩ := h.own n hn
      refine ⟨child, hhandle.congr ?_⟩
      rw [Book.own_append, Book.own_eq_nil_of_not_mem hmem howners, List.append_nil]

/-- A child that was launched gets the next number, and its calls begin. -/
theorem Booked.register (h : session.Booked options book) {o : LaunchOptions} {child : Child}
    (calls : Log)
    (hentries : session'.supervisor.entries.map (·.child) =
      session.supervisor.entries.map (·.child) ++ [child])
    (hlaunches : session'.launches = session.launches + 1)
    (hlog : session'.machine.2 = session.machine.2 ++ calls)
    (hgroup : child.leadsGroup = o.detachProcessGroup) (htracks : Tracks child calls) :
    session'.Booked (options ++ [o]) (book ++ .of (some options.length) calls) := by
  have hunborn : book.own options.length = [] :=
    Book.own_eq_nil fun p hp hpn => absurd ((h.owned p hp).2 _ hpn) (Nat.lt_irrefl _)
  have hnew : Handle (options ++ [o]) (book ++ .of (some options.length) calls) options.length
      child := by
    refine ⟨o, List.getElem?_concat_length .., hgroup, ?_⟩
    rwa [Book.own_append, Book.own_of_self, hunborn, List.nil_append]
  have hmoved {n : Nat} {c : Child} (hhandle : Handle options book n c) :
      Handle (options ++ [o]) (book ++ .of (some options.length) calls) n c := by
    obtain ⟨o', ho', hgroup', htracks'⟩ := hhandle
    obtain ⟨hn, -⟩ := List.getElem?_eq_some_iff.mp ho'
    have hne : some options.length ≠ some n := fun heq => absurd (Option.some.inj heq) (by omega)
    refine ⟨o', ?_, hgroup', ?_⟩
    · rw [List.getElem?_append_left hn, ho']
    · rwa [Book.own_append, Book.own_of_ne hne, List.append_nil]
  refine ⟨?_, ?_, ?_, ?_, ?_⟩
  · rw [Book.log_append, Book.log_of, h.log, hlog]
  · rw [hlaunches, h.launches, List.length_append]
    rfl
  · intro p hp
    rw [List.length_append, List.length_singleton]
    rcases List.mem_append.mp hp with hp | hp
    · obtain ⟨hnone, hsome⟩ := h.owned p hp
      exact ⟨hnone, fun n hn => Nat.lt_succ_of_lt (hsome n hn)⟩
    · obtain ⟨call, -, rfl⟩ := List.mem_map.mp hp
      refine ⟨nofun, fun n hn => ?_⟩
      obtain rfl := Option.some.inj hn
      exact Nat.lt_succ_self _
  · intro n hn
    rw [List.length_append, List.length_singleton] at hn
    by_cases hold : n < options.length
    · obtain ⟨c, hhandle⟩ := h.own n hold
      exact ⟨c, hmoved hhandle⟩
    · obtain rfl : n = options.length := by omega
      exact ⟨child, hnew⟩
  · obtain ⟨ns, hns, hhandles⟩ := h.handles
    refine ⟨ns ++ [options.length], ?_, ?_⟩
    · have hfresh : options.length ∉ ns := by
        intro hmem
        obtain ⟨c, o', ho', -⟩ := exists_of_forall₂ hhandles hmem
        exact absurd (List.getElem?_eq_some_iff.mp ho').1 (Nat.lt_irrefl _)
      refine List.nodup_append.mpr ⟨hns, List.pairwise_singleton _ _, ?_⟩
      rintro n hn k hk rfl
      exact hfresh (List.mem_singleton.mp hk ▸ hn)
    · rw [hentries]
      exact List.rel_append (hhandles.imp fun _ _ => hmoved) (.cons hnew .nil)

theorem booked_launch (h : session.Booked options book) (executable : String) (args : List String)
    (o : LaunchOptions) (callbacks : Callbacks σ) (kill : Bool) :
    let action := .launch executable args o callbacks kill
    ∃ more, (session.act host action).Booked (options ++ session.grants host action)
      (book ++ more) := by
  simp only [act, grants, launch, Supervisor.launch]
  generalize hspawn : spawn host.logged executable args o session.machine = spawned
  obtain ⟨result, w⟩ := spawned
  cases result with
  | error cause =>
    rw [List.append_nil]
    exact h.quiet (idle_of_spawn hspawn) rfl rfl
  | ok child =>
    obtain ⟨hgroup, request, launched, hlog, htracks⟩ := Tracks.spawn hspawn
    simp only [Supervisor.register]
    have hminds := Entry.minds_launched host session.shared w child
      (callbacks.recorded session.launches) kill
    generalize Entry.launched host.logged child (callbacks.recorded session.launches) kill
      session.shared w = m at hminds
    obtain ⟨-, hgroup', calls, hcalls, hgoes⟩ := hminds
    refine ⟨_, h.register ([.start request (.ok launched)] ++ calls) ?_ rfl ?_
      (hgroup'.trans hgroup) (hgoes _ htracks)⟩
    · exact List.map_append
    · rw [← List.append_assoc, ← hlog]
      exact hcalls

theorem booked_poll (h : session.Booked options book) :
    ∃ more, (session.poll host).Booked options (book ++ more) := by
  have hvisits := Supervisor.visits_pollAll host session.supervisor.entries session.shared
    session.machine
  refine h.visits hvisits ?_ rfl
  simp only [poll, Supervisor.poll]
  exact List.filter_sublist.map _

theorem booked_waitSteps (h : session.Booked options book) {steps : List (Action σ ω)}
    (hsteps : ∀ step ∈ steps, IsWaitStep step) :
    ∃ more, (session.run host steps).Booked options (book ++ more) := by
  induction steps generalizing session book with
  | nil => exact ⟨[], by rwa [List.append_nil]⟩
  | cons step steps ih =>
    obtain ⟨hstep, hsteps⟩ := List.forall_mem_cons.mp hsteps
    have hfirst : ∃ more, (session.act host step).Booked options (book ++ more) := by
      rcases hstep with rfl | rfl | ⟨microseconds, rfl⟩
      · exact booked_poll h
      · exact h.quiet (.one (.now _) trivial rfl) rfl rfl
      · exact h.quiet (.one (.sleep _) trivial rfl) rfl rfl
    obtain ⟨more, hnext⟩ := hfirst
    obtain ⟨rest, hlast⟩ := ih hnext hsteps
    rw [List.append_assoc] at hlast
    exact ⟨more ++ rest, hlast⟩

/-- Whatever a caller does, the calls are accounted for. -/
theorem booked_act (host : Host ω) (h : session.Booked options book) (action : Action σ ω) :
    ∃ more, (session.act host action).Booked (options ++ session.grants host action)
      (book ++ more) := by
  cases action with
  | launch executable args o callbacks kill =>
    exact booked_launch h executable args o callbacks kill
  | poll =>
    simp only [grants, List.append_nil]
    exact booked_poll h
  | wait rounds interval maxWait =>
    obtain ⟨steps, hsteps, hwait⟩ := wait_steps host rounds interval maxWait session
    simp only [hwait, grants, List.append_nil]
    exact booked_waitSteps h hsteps
  | signalAll signal =>
    simp only [grants, List.append_nil]
    exact h.visits (Supervisor.visits_signalEach host signal _ _) (List.Sublist.refl _) rfl
  | sleep microseconds =>
    simp only [grants, List.append_nil]
    exact h.quiet (.one (.sleep _) trivial rfl) rfl rfl
  | clock =>
    simp only [grants, List.append_nil]
    exact h.quiet (.one (.now _) trivial rfl) rfl rfl
  | elsewhere change =>
    simp only [grants, List.append_nil]
    exact h.quiet (.of_eq _ rfl) rfl rfl

theorem booked_run (host : Host ω) (h : session.Booked options book) (actions : List (Action σ ω)) :
    ∃ more, (session.run host actions).Booked (options ++ session.granted host actions)
      (book ++ more) := by
  induction actions generalizing session options book with
  | nil =>
    refine ⟨[], ?_⟩
    rw [granted, List.append_nil, List.append_nil]
    exact h
  | cons action rest ih =>
    obtain ⟨more, hnext⟩ := booked_act host h action
    obtain ⟨further, hlast⟩ := ih hnext
    rw [List.append_assoc, List.append_assoc] at hlast
    exact ⟨more ++ further, hlast⟩

end Session

/-- **No signal is sent to a child whose exit has been seen.**

* A request to end a child is one call, to the child or to the group that it leads, and changes
  nothing of the child; once its exit has been seen it is no call at all.
* Whatever is done with a child, the calls that are made for it track it.
* So do the calls of a run of a single program.
* Whatever is done with a supervisor, every call is made for one of its children or concerns none,
  and the calls that are made for a child track it. -/
theorem signals_before_the_exit (host : Host ω) :
    (∀ (child : Child) (force : Bool) (w : ω × Log),
      let done := child.perform host w (.terminate force)
      child.exited = true ∧ done = (.signalled (.ok ()), child, w) ∨
        child.exited = false ∧ ∃ answer result w', done = (.signalled answer, child, w') ∧
          w'.2 = w.2 ++ [.kill (if child.leadsGroup then .group child.pid else .process child.pid)
            (if force then .kill else .terminate) result]) ∧
    (∀ (executable : String) (args : List String) (options : LaunchOptions) (w : ω) (w' : ω × Log)
      (child : Child),
      spawn host.logged executable args options (w, []) = (.ok child, w') → ∀ operations,
        let done := child.deal host w' operations
        done.child.pid = child.pid ∧ done.child.leadsGroup = options.detachProcessGroup ∧
          Tracks done.child done.machine.2) ∧
    (∀ (fuel : Nat) (executable : String) (args : List String) (input : String)
      (options : LaunchOptions) (w : ω),
      let log := (runProgram host.logged fuel executable args input options (w, [])).2.2
      (∀ call ∈ log, call.Idle) ∨
        ∃ child, child.leadsGroup = options.detachProcessGroup ∧ Tracks child log) ∧
    ∀ (σ : Type) (s : σ) (w : ω) (actions : List (Action σ ω)),
      ∃ book, ((Session.start s w).run host actions).Booked
          ((Session.start s w).granted host actions) book ∧
        ∀ more, ∃ further, ((Session.start s w).run host (actions ++ more)).Booked
          ((Session.start s w).granted host (actions ++ more)) (book ++ further) := by
  refine ⟨?_, ?_, tracks_runProgram host, ?_⟩
  · intro child force w
    obtain ⟨hexited, h⟩ | ⟨hexited, result, hlog⟩ :=
      Child.signal_cases host child w (.ofForce force)
    · refine Or.inl ⟨hexited, ?_⟩
      rw [Child.perform, h]
    · exact Or.inr ⟨hexited, _, result, _, rfl, hlog⟩
  · intro executable args options w w' child hspawn operations
    obtain ⟨hgroup, request, launched, hlog, htracks⟩ := Tracks.spawn hspawn
    obtain ⟨hpid, hgroup', calls, hcalls, hgoes⟩ := Child.minds_deal host child w' operations
    refine ⟨hpid, hgroup'.trans hgroup, ?_⟩
    rw [hcalls, hlog]
    exact hgoes _ htracks
  · intro σ s w actions
    obtain ⟨book, hbooked⟩ := Session.booked_run host (Session.booked_start s w) actions
    refine ⟨book, hbooked, ?_⟩
    intro more
    obtain ⟨further, hlater⟩ := Session.booked_run host hbooked more
    refine ⟨further, ?_⟩
    rw [Session.granted_append, Session.run, List.foldl_append]
    exact hlater

/-- A child is killed once, although it is to be killed twice. -/
theorem signals_before_the_exit_killed :
    ∃ w' child, spawn Host.lone.logged "/bin/cat" [] {} ({ answers := [] }, []) = (.ok child, w') ∧
      let done := child.deal Host.lone w' [.terminate true, .tryWait, .terminate true]
      done.child.exited = true ∧ Tracks done.child done.machine.2 ∧
        done.machine.2.filterMap (fun call => match call with
          | .kill target signal _ => some (target, signal)
          | _ => none) = [(.group 1, .kill)] := by
  have hspawn : (spawn Host.lone.logged "/bin/cat" [] {} ({ answers := [] }, [])).1 = .ok
      { pid := 1, stdin := some 0, stdout := some 1, stderr := some 2, leadsGroup := true } := by
    cbv
  obtain ⟨-, hhandle, -⟩ := signals_before_the_exit Host.lone
  have htracks := (hhandle _ _ _ _ _ _ (Prod.ext hspawn rfl)
    [.terminate true, .tryWait, .terminate true]).2.2
  exact ⟨_, _, Prod.ext hspawn rfl, by cbv, htracks, by cbv⟩

end Chaperone
