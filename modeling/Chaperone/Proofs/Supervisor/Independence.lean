import Chaperone.Proofs.Child.Rest
import Chaperone.Proofs.Supervisor.Watch

/-!
# Children are independent

Two supervisors that have a child in common need not have the same other children, nor the same
machine.  As long as the child gets the same results for its calls they treat it in the same way
(`Watch.Alike.pass`, `Watch.Alike.run`): its neighbours may write what they like, fail to be read or
written to, end and leave the registry, and the child may stand anywhere among them.
-/

namespace Chaperone

namespace Watch

variable {σ τ ω ω' : Type} {part : Nat → σ → τ} {n : Nat} {watch : Watch σ ω} {watch' : Watch σ ω'}

/-! ### Two supervisors of one child -/

/-- Two supervisors have the child `n`, with what belongs to it the same, or both do not have it.
Otherwise they need have nothing in common. -/
structure Alike (part : Nat → σ → τ) (n : Nat) (watch : Watch σ ω) (watch' : Watch σ ω') :
    Prop where
  keeps : watch.Keeps part
  keeps' : watch'.Keeps part
  entry : watch'.children.lookup n = watch.children.lookup n
  own : part n watch.shared = part n watch'.shared

theorem Alike.moved (h : Alike part n watch watch') (w : ω) (v : ω') :
    Alike part n { watch with machine := w } { watch' with machine := v } :=
  ⟨h.keeps.moved w, h.keeps'.moved v, h.entry, h.own⟩

section

variable {host : Host ω} {host' : Host ω'}

theorem Alike.look (h : Alike part n watch watch')
    (hsame : SameResults host host' (turnsOf n (watch.turns host .look))
      (turnsOf n (watch'.turns host' .look))) :
    Alike part n (watch.look host) (watch'.look host') ∧
      (turnsOf n (watch.turns host .look)).map Turn.deed =
        (turnsOf n (watch'.turns host' .look)).map Turn.deed := by
  obtain ⟨hkeeps, hkeeps', hentry, hown⟩ := h
  have hlook := (hkeeps.look host).1
  have hlook' := (hkeeps'.look host').1
  cases hn : watch.children.lookup n with
  | none =>
    obtain ⟨hturns, hleft, hpart⟩ := hkeeps.look_none hn host
    obtain ⟨hturns', hleft', hpart'⟩ := hkeeps'.look_none (hentry.trans hn) host'
    refine ⟨⟨hlook, hlook', hleft'.trans hleft.symm, ?_⟩, ?_⟩
    · rw [hpart, hpart', hown]
    · rw [hturns, hturns']
      rfl
  | some entry =>
    obtain ⟨s, w, hbefore, hturns, hleft, hpart⟩ := hkeeps.look_some hn host
    obtain ⟨s', v, hbefore', hturns', hleft', hpart'⟩ :=
      hkeeps'.look_some (hentry.trans hn) host'
    have hshows : Shows host host' (entry.calls host s w) w v :=
      hsame _ (hturns ▸ List.mem_singleton_self _) _ (hturns' ▸ List.mem_singleton_self _)
    have hkeep : entry.KeepsTo part n := by
      obtain ⟨before, after, hchildren, -⟩ := List.lookup_eq_some_iff.mp hn
      exact hkeeps.keep (n, entry) (by simp [hchildren])
    obtain ⟨htwins, hcalls⟩ :=
      hkeep.poll_twins (hbefore.trans (hown.trans hbefore'.symm)) hshows
    refine ⟨⟨hlook, hlook', ?_, ?_⟩, ?_⟩
    · rw [hleft, hleft', Option.filter_some, Option.filter_some, htwins.finished]
      cases hf : (entry.poll host s w).1.finished with
      | true => rfl
      | false => rw [htwins.entry hf]
    · rw [hpart, hpart', htwins.own]
    · rw [hturns, hturns', List.map_singleton, List.map_singleton, Turn.deed, Turn.deed, hcalls,
        htwins.child]

theorem Alike.signal (h : Alike part n watch watch') {signal : Signal}
    (hsame : SameResults host host' (turnsOf n (watch.turns host (.signal signal)))
      (turnsOf n (watch'.turns host' (.signal signal)))) :
    (turnsOf n (watch.turns host (.signal signal))).map Turn.deed =
      (turnsOf n (watch'.turns host' (.signal signal))).map Turn.deed := by
  obtain ⟨hkeeps, hkeeps', hentry, -⟩ := h
  cases hn : watch.children.lookup n with
  | none =>
    have hturns : turnsOf n (watch.turns host (.signal signal)) = [] :=
      signal_of_not_mem (not_mem_of_lookup hn) host signal watch.machine
    have hturns' : turnsOf n (watch'.turns host' (.signal signal)) = [] :=
      signal_of_not_mem (not_mem_of_lookup (hentry.trans hn)) host' signal watch'.machine
    rw [hturns, hturns']
    rfl
  | some entry =>
    obtain ⟨w, hturns⟩ := signal_of_lookup hkeeps.nodup_children hn host signal watch.machine
    obtain ⟨v, hturns'⟩ :=
      signal_of_lookup hkeeps'.nodup_children (hentry.trans hn) host' signal watch'.machine
    have hshows : Shows host host' (entry.child.signalCalls host signal w) w v :=
      hsame _ (hturns ▸ List.mem_singleton_self _) _ (hturns' ▸ List.mem_singleton_self _)
    rw [turns, turns, hturns, hturns', List.map_singleton, List.map_singleton, Turn.deed,
      Turn.deed, entry.child.signalCalls_shown signal hshows]

/-- **One pass**, in which the child sees the same. -/
theorem Alike.pass (h : Alike part n watch watch') (pass : Pass)
    (hsame : SameResults host host' (turnsOf n (watch.turns host pass))
      (turnsOf n (watch'.turns host' pass))) :
    Alike part n (watch.pass host pass) (watch'.pass host' pass) ∧
      (turnsOf n (watch.turns host pass)).map Turn.deed =
        (turnsOf n (watch'.turns host' pass)).map Turn.deed := by
  cases pass with
  | look => exact h.look hsame
  | signal signal => exact ⟨h.moved _ _, h.signal hsame⟩

/-- **Pass after pass**, in each of which the child sees the same. -/
theorem Alike.run {passes : List (Pass × (ω → ω))} {passes' : List (Pass × (ω' → ω'))}
    (h : Alike part n watch watch') (hpasses : passes'.map Prod.fst = passes.map Prod.fst)
    (hsame : List.Forall₂ (SameResults host host') (watch.course host n passes)
      (watch'.course host' n passes')) :
    Alike part n (watch.run host passes) (watch'.run host' passes') ∧
      (watch.course host n passes).map (·.map Turn.deed) =
        (watch'.course host' n passes').map (·.map Turn.deed) := by
  induction passes generalizing watch watch' passes' with
  | nil =>
    obtain rfl : passes' = [] := List.map_eq_nil_iff.mp hpasses
    exact ⟨h, rfl⟩
  | cons p passes ih =>
    obtain ⟨pass, change⟩ := p
    obtain ⟨⟨_, change'⟩, passes', rfl, rfl, hrest⟩ := List.map_eq_cons_iff.mp hpasses
    obtain ⟨hfirst, hothers⟩ := List.forall₂_cons.mp hsame
    have hmoved : Alike part n (watch.meanwhile change) (watch'.meanwhile change') := h.moved _ _
    obtain ⟨hnext, hdeeds⟩ := hmoved.pass _ hfirst
    obtain ⟨hlast, hmore⟩ := ih hnext hrest hothers
    exact ⟨hlast, congrArg₂ List.cons hdeeds hmore⟩

end

/-! ### From the beginning -/

theorem children_start (children : List (Nat × Entry σ)) (s : σ) (w : ω) :
    (start children s w).children =
      children.map fun (n, entry) =>
        (n, { entry with callbacks := entry.callbacks.recordedOn n }) :=
  List.zip_map' ..

section

variable {children : List (Nat × Entry σ)} {entry : Entry σ}

theorem keeps_start (h : Separate part children) (s : σ) (w : ω) :
    (start children s w).Keeps (share part) := by
  refine ⟨?_, h.nodup, ?_⟩
  · simp only [start, List.length_map]
  · intro p hp
    rw [children_start] at hp
    obtain ⟨⟨n, entry⟩, hentry, rfl⟩ := List.mem_map.mp hp
    exact ⟨(h.keep _ hentry).recordedOn, rfl⟩

theorem lookup_of_mem (hnodup : (children.map Prod.fst).Nodup) (hn : (n, entry) ∈ children) :
    children.lookup n = some entry := by
  obtain ⟨before, after, rfl⟩ := List.append_of_mem hn
  rw [List.map_append, List.map_cons, List.nodup_append] at hnodup
  refine List.lookup_eq_some_iff.mpr ⟨before, after, rfl, ?_⟩
  intro p hp
  have hne : p.1 ≠ n := hnodup.2.2 _ (List.mem_map_of_mem hp) _ List.mem_cons_self
  simpa using hne.symm

theorem lookup_start (h : Separate part children) (hn : (n, entry) ∈ children) (s : σ) (w : ω) :
    (start children s w).children.lookup n =
      some { entry with callbacks := entry.callbacks.recordedOn n } := by
  refine lookup_of_mem ?_ ?_
  · rw [(keeps_start h s w).map_fst]
    exact h.nodup
  · rw [children_start]
    exact List.mem_map_of_mem hn

end

/-- **Children are independent.**  Take two supervisors that both have the child `n`, each among any
other children, and the same passes over both.  If the calls that are made in the turns of the child
under the one supervisor give the same under the other, then the callbacks of the child run for the
same and make the same of their part, it is left in the same state, in the end and in every pass,
and the same calls are made for it.  The turns of the children are all that the passes do.

With `children' = [(n, entry)]` this says that all goes as if the child were alone. -/
theorem children_independent {children children' : List (Nat × Entry σ)}
    (hseparate : Separate part children) (hseparate' : Separate part children') {entry : Entry σ}
    (hn : (n, entry) ∈ children) (hn' : (n, entry) ∈ children') {s s' : σ}
    (hs : part n s = part n s') (host : Host ω) (host' : Host ω') (w : ω) (v : ω')
    {passes : List (Pass × (ω → ω))} {passes' : List (Pass × (ω' → ω'))}
    (hpasses : passes'.map Prod.fst = passes.map Prod.fst)
    (hsame : List.Forall₂ (SameResults host host') ((start children s w).course host n passes)
      ((start children' s' v).course host' n passes')) :
    let last := (start children s w).run host passes
    let last' := (start children' s' v).run host' passes'
    firings n last.shared.2 = firings n last'.shared.2 ∧
      part n last.shared.1 = part n last'.shared.1 ∧
      last'.children.lookup n = last.children.lookup n ∧
      ((start children s w).course host n passes).map (·.map Turn.deed) =
        ((start children' s' v).course host' n passes').map (·.map Turn.deed) ∧
      last.TakesTurns host ∧ last'.TakesTurns host' := by
  have hbegin : Alike (share part) n (start children s w) (start children' s' v) := by
    refine ⟨keeps_start hseparate s w, keeps_start hseparate' s' v, ?_, congrArg (·, []) hs⟩
    rw [lookup_start hseparate hn, lookup_start hseparate' hn']
  obtain ⟨halike, hdeeds⟩ := hbegin.run hpasses hsame
  obtain ⟨hpart, hfirings⟩ := Prod.mk.inj halike.own
  exact ⟨hfirings, hpart, halike.entry, hdeeds, halike.keeps.takesTurns host,
    halike.keeps'.takesTurns host'⟩

/-- A child whose output is read from the pipe `d`.  The only callback notes how the child ended. -/
def noting (n : Nat) (pid : Pid) (d : Descriptor) : Entry (Nat → Option ExitStatus) where
  child := { pid, stdin := none, stdout := some d, stderr := none, leadsGroup := true }
  callbacks := {
    Memory := Unit
    memory := ()
    onExit := some fun _ status _ s => Function.update s n (some status) }
  killOnInputFailure := false

theorem keepTo_noting (n : Nat) (pid : Pid) (d : Descriptor) :
    (noting n pid d).callbacks.KeepTo (fun k s => s k) n where
  onOutput stream _ h := by cases stream <;> cases h
  onExit := by
    rintro _ ⟨⟩ occasion status memory s s' -
    refine ⟨rfl, ?_, ?_⟩
    · simp only [Function.update_self]
    · intro k hk
      exact Function.update_of_ne hk _ _

/-- Beside a child that has written something, a child that has not fares as it does alone, on a
machine where nothing was ever written. -/
theorem children_independent_noting :
    let passes : List (Pass × (List UInt8 → List UInt8)) := [(.signal .terminate, id), (.look, id)]
    let pair := start [(0, noting 0 7 1), (1, noting 1 8 2)] (fun _ => none) [104, 105]
    let alone := start [(1, noting 1 8 2)] (fun _ => none) []
    (pair.run Host.ended passes).shared.2 =
        [(0, .output (.stdout, "hi")), (0, .exited (.exited 0)), (1, .exited (.exited 0))] ∧
      firings 1 (pair.run Host.ended passes).shared.2 =
        firings 1 (alone.run Host.ended passes).shared.2 ∧
      (pair.run Host.ended passes).shared.1 1 = (alone.run Host.ended passes).shared.1 1 ∧
      (alone.run Host.ended passes).children.lookup 1 =
        (pair.run Host.ended passes).children.lookup 1 ∧
      (pair.course Host.ended 1 passes).map (·.map Turn.deed) =
        (alone.course Host.ended 1 passes).map (·.map Turn.deed) ∧
      (pair.run Host.ended passes).TakesTurns Host.ended ∧
      (alone.run Host.ended passes).TakesTurns Host.ended := by
  intro passes pair alone
  have hpair : Separate (fun k (s : Nat → Option ExitStatus) => s k)
      [(0, noting 0 7 1), (1, noting 1 8 2)] := by
    refine ⟨by decide, List.forall_mem_cons.mpr ⟨keepTo_noting 0 7 1, ?_⟩⟩
    exact List.forall_mem_singleton.mpr (keepTo_noting 1 8 2)
  have halone : Separate (fun k (s : Nat → Option ExitStatus) => s k) [(1, noting 1 8 2)] :=
    ⟨by decide, List.forall_mem_singleton.mpr (keepTo_noting 1 8 2)⟩
  have hsame : List.Forall₂ (SameResults Host.ended Host.ended) (pair.course Host.ended 1 passes)
      (alone.course Host.ended 1 passes) := by
    let running : Child :=
      { pid := 8, stdin := none, stdout := some 2, stderr := none, leadsGroup := true }
    let ended : Child := { running with stdout := none, status := some (.exited 0) }
    let signalled : Log := [.kill (.group 8) .terminate (.ok ())]
    let looked : Log := [.read 2 readChunk (.bytes []), .close 2, .reap 8 (.ended 0)]
    have hcourse : pair.course Host.ended 1 passes =
        [[⟨1, [104, 105], signalled, running⟩], [⟨1, [], looked, ended⟩]] := by cbv
    have hcourse' : alone.course Host.ended 1 passes =
        [[⟨1, [], signalled, running⟩], [⟨1, [], looked, ended⟩]] := by cbv
    rw [hcourse, hcourse']
    refine .cons ?_ (.cons ?_ .nil)
    · intro turn hturn turn' hturn'
      rw [List.mem_singleton.mp hturn, List.mem_singleton.mp hturn']
      exact ⟨rfl, rfl, rfl⟩
    · intro turn hturn turn' hturn'
      rw [List.mem_singleton.mp hturn, List.mem_singleton.mp hturn']
      exact .refl _ _ _
  refine ⟨by cbv, children_independent hpair halone (List.mem_cons_of_mem _ List.mem_cons_self)
    List.mem_cons_self rfl Host.ended Host.ended _ _ rfl hsame⟩

end Watch

end Chaperone
