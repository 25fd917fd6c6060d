import VclRs.Wakeups.Runtime

namespace VclRs

open Interaction

instance instDecidableFaithful : ∀ e : Ev, Decidable (Faithful e)
  | ⟨.waitersEntry _ sh,n⟩ => inferInstanceAs (Decidable ((n : ℕ) = sh.toNat))
  | ⟨.initializedSwap _,_⟩ | ⟨.initializedStore _,_⟩ | ⟨.appCreate _,_⟩ | ⟨.appCreated,_⟩
  | ⟨.appDestroy,_⟩ | ⟨.appDestroyed,_⟩
  | ⟨.workerRegister,_⟩ | ⟨.workerIndex,_⟩ | ⟨.workerUnregister,_⟩ | ⟨.sessionCreate _ _,_⟩
  | ⟨.sessionClose _,_⟩ | ⟨.sessionShutdown _ _,_⟩ | ⟨.sessionBind _ _,_⟩
  | ⟨.sessionListen _ _,_⟩ | ⟨.sessionAccept _,_⟩ | ⟨.sessionConnect _ _,_⟩
  | ⟨.sessionRead _ _,_⟩ | ⟨.sessionWrite _ _,_⟩ | ⟨.sessionSendto _ _ _,_⟩
  | ⟨.sessionRecvfrom _ _,_⟩ | ⟨.sessionAttr _ _,_⟩ | ⟨.epollCreate,_⟩ | ⟨.epollCtl _ _ _ _,_⟩
  | ⟨.epollWait _ _ _,_⟩ | ⟨.mqEpollFd,_⟩ | ⟨.asyncFd _,_⟩ | ⟨.instantNow,_⟩ | ⟨.sleep _,_⟩
  | ⟨.genRange _ _,_⟩ | ⟨.registeredGet,_⟩ | ⟨.registeredSet,_⟩ | ⟨.registerLock,_⟩
  | ⟨.registerUnlock,_⟩ | ⟨.waitersRemove _ _,_⟩ | ⟨.notifyOne _ _,_⟩ | ⟨.notifyEvery _,_⟩
  | ⟨.select _ _ _,_⟩ | ⟨.recheck _,_⟩ | ⟨.clearReady _,_⟩ | ⟨.waitPoll _ _,_⟩
  | ⟨.spawnBlocking,_⟩ | ⟨.joinBlocking,_⟩ | ⟨.taskSpawn,_⟩
  | ⟨.taskJoin _,_⟩ | ⟨.barrierWait,_⟩ => isTrue trivial

inductive Move where
  | spawn (e : Errand)
  | call (i : ℕ) (answer : (c : Call) → Reply c)
  | arrive (i : ℕ)
  | poll (i : ℕ) (answer : (c : Call) → Reply c)
  | lose (i : ℕ) (answer : (c : Call) → Reply c)

namespace Runtime

def play (r : VclReactor) (R : Runtime) : Move → Option Runtime
  | .spawn e => some { R with futures := R.futures ++ [⟨e,.running (e.code r)⟩] }
  | .call i answer =>
    match R.futures[i]? with
    | some ⟨e,.running p⟩ =>
      match p.expose 4 with
      | some ⟨o,k⟩ =>
        if awaited o = none ∧ Faithful ⟨o,answer o⟩ then
          some ((R.perform o).resume i ⟨e,.running (k (answer o))⟩)
        else none
      | none => none
    | _ => none
  | .arrive i =>
    match R.futures[i]? with
    | some ⟨e,.running p⟩ =>
      match p.expose 4 with
      | some ⟨o,k⟩ => (awaited o).map (fun _ => R.resume i ⟨e,.awaiting o k⟩)
      | none => none
    | _ => none
  | .poll i answer =>
    match R.futures[i]? with
    | some ⟨e,.awaiting o k⟩ =>
      match awaited o with
      | some n =>
        match (R.notifies n).poll i with
        | (none,N) => some (R.settle n N)
        | (some x,N) =>
          if heard ⟨o,answer o⟩ = true then
            some (((R.settle n N).consume n i x).resume i ⟨e,.running (k (answer o))⟩)
          else none
      | none => none
    | _ => none
  | .lose i answer =>
    match R.futures[i]? with
    | some ⟨e,.awaiting o k⟩ =>
      match awaited o with
      | some n =>
        if heard ⟨o,answer o⟩ = false ∧
            (overslept ⟨o,answer o⟩ = true → i ∈ (R.notifies n).members) then
          some ((R.settle n ((R.notifies n).abandon i)).resume i ⟨e,.running (k (answer o))⟩)
        else none
      | none => none
    | _ => none

def tour (r : VclReactor) : Runtime → List Move → Option (List Runtime)
  | _, [] => some []
  | R, m :: ms => (R.play r m).bind (fun R' => (R'.tour r ms).map (R' :: ·))

end Runtime

section Sound

variable {r : VclReactor} {R R' : Runtime}

theorem play_step {m : Move} (h : R.play r m = some R') : Step r R R' := by
  cases m with
  | spawn e =>
    cases h
    exact .spawn e
  | call i answer =>
    simp only [Runtime.play] at h
    split at h
    · next e p hf =>
      split at h
      · next o k hp =>
        split_ifs at h with hc
        cases h
        exact .call hf (Prog.expose_head hp) hc.1 (answer o) hc.2
      · cases h
    · cases h
  | arrive i =>
    simp only [Runtime.play] at h
    split at h
    · next e p hf =>
      split at h
      · next o k hp =>
        obtain ⟨n,hn,rfl⟩ := Option.map_eq_some_iff.mp h
        exact .arrive hf (Prog.expose_head hp) hn
      · cases h
    · cases h
  | poll i answer =>
    simp only [Runtime.play] at h
    split at h
    · next e o k hf =>
      split at h
      · next n hn =>
        split at h
        · next N hN =>
          cases h
          exact .pending hf hn hN
        · next x N hN =>
          split_ifs at h with ha
          cases h
          exact .notified hf hn hN (answer o) ha
      · cases h
    · cases h
  | lose i answer =>
    simp only [Runtime.play] at h
    split at h
    · next e o k hf =>
      split at h
      · next n hn =>
        split_ifs at h with hc
        cases h
        exact .lost hf hn (answer o) hc.1 hc.2
      · cases h
    · cases h

theorem tour_trail {ms : List Move} {run : List Runtime} (h : R.tour r ms = some run) :
    Trail r R run := by
  induction ms generalizing R run with
  | nil =>
    cases h
    exact .singleton R
  | cons m ms ih =>
    obtain ⟨R₁,hm,hms⟩ := Option.bind_eq_some_iff.mp h
    obtain ⟨rest,hrest,rfl⟩ := Option.map_eq_some_iff.mp hms
    exact .cons_cons (play_step hm) (ih hrest)

theorem tour_last {P : List Runtime → Prop} {Q : Runtime → Prop} [DecidablePred P]
    [DecidablePred Q] (R : Runtime) (ms : List Move) (h : (R.tour r ms).any (fun run =>
      decide (P run) && run.getLast?.any (fun R' => decide (Q R'))) = true) :
    ∃ run R', Trail r R run ∧ run.getLast? = some R' ∧ P run ∧ Q R' := by
  obtain ⟨run,hrun,hboth⟩ := (Option.any_eq_true _ _).mp h
  obtain ⟨hP,hlast⟩ := Bool.and_eq_true_iff.mp hboth
  obtain ⟨R',hR',hQ⟩ := (Option.any_eq_true _ _).mp hlast
  exact ⟨run,R',tour_trail hrun,hR',of_decide_eq_true hP,of_decide_eq_true hQ⟩

theorem trail_concat {run : List Runtime} {R₁ R₂ : Runtime} (h : Trail r R run)
    (hlast : run.getLast? = some R₁) (hstep : Step r R₁ R₂) :
    Trail r R (run ++ [R₂]) ∧ [R₁,R₂] <:+: R :: (run ++ [R₂]) := by
  obtain ⟨init,rfl⟩ := List.getLast?_eq_some_iff.mp hlast
  constructor
  · have hsplit : R :: (init ++ [R₁] ++ [R₂]) = (R :: init) ++ R₁ :: [R₂] := by simp
    rw [Trail,hsplit,List.isChain_split]
    exact ⟨h,.cons_cons hstep (.singleton R₂)⟩
  · exact ⟨R :: init,[],by simp⟩

end Sound

end VclRs
