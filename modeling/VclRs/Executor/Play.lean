import VclRs.Executor.Bench

namespace VclRs

open Interaction

inductive Cue where
  | spawn (d : Chore)
  | elapse (t : Duration)
  | act (i : ℕ) (env : (c : Call) → Reply c)
  | pend (i : ℕ)
  | suspend (i : ℕ)

namespace Bench

def suits (R : Bench) (env : (c : Call) → Reply c) : (c : Call) → Reply c
  | .instantNow => R.clock
  | .waitersEntry vep sh => (R.waiters.lookup (vep,sh)).getD R.made
  | .select v n d => (R.clock,(env (.select v n d)).2)
  | .recheck n => (R.clock,(env (.recheck n)).2)
  | c => env c

def acted (R : Bench) (i : ℕ) (env : (c : Call) → Reply c) (l : Lane)
    (x : Σ o, Reply o → Routine) : Option Bench :=
  if polls x.1 then none
  else (R.touch (.lane i) ⟨x.1,R.suits env x.1⟩).map (fun T =>
    ((T.store (l.arms ⟨x.1,R.suits env x.1⟩)).resume i
      (l.advance ⟨x.1,R.suits env x.1⟩ (x.2 (R.suits env x.1)))).note (.lane i)
        ⟨x.1,R.suits env x.1⟩)

def pended (R : Bench) (w : Party) (n : NotifyId) : Option Bench :=
  match (R.notifies n).poll w with
  | (none,N) => some (R.settle n N)
  | (some _,_) => none

def suspended (R : Bench) (i : ℕ) (l : Lane) : Option Bench :=
  match l.code.expose 20 with
  | some ⟨.waitPoll sh cx,k⟩ => do
    let s ← l.chore.slot
    let p ← R.slots s
    let x ← p.expose 20
    let n ← awaited x.1
    let T ← R.pended (.slot s) n
    some (T.resume i (l.advance ⟨.waitPoll sh cx,.pending⟩ (k .pending)))
  | _ => none

def play [Platform] (R : Bench) : Cue → Option Bench
  | .spawn d => some { R with lanes := R.lanes ++ [⟨d,[],d.code (d.slot.bind R.slots).isSome⟩] }
  | .elapse t => some { R with clock := R.clock + t }
  | .act i env => do
    let l ← R.lanes[i]?
    let x ← l.code.expose 20
    R.acted i env l x
  | .pend i => do
    let l ← R.lanes[i]?
    let x ← l.code.expose 20
    let n ← awaited x.1
    R.pended (.lane i) n
  | .suspend i => do
    let l ← R.lanes[i]?
    R.suspended i l

def tour [Platform] (R : Bench) : List Cue → List Bench
  | [] => []
  | m :: ms =>
    match R.play m with
    | some R' => R' :: R'.tour ms
    | none => []

section Soundness

variable {R R' : Bench} {i : ℕ} {l : Lane} {w : Party} {n : NotifyId}

theorem pended_some (h : R.pended w n = some R') :
    ∃ N, (R.notifies n).poll w = (none,N) ∧ R' = R.settle n N := by
  rw [pended] at h
  split at h
  · next N hN =>
    cases h
    exact ⟨N,hN,rfl⟩
  · cases h

theorem awaits_exposed {α : Type} {p : Prog Call Reply α} {x : Σ o, Reply o → Prog Call Reply α}
    (hx : p.expose 20 = some x) (hn : awaited x.1 = some n) : Awaits p n :=
  ⟨x.1,x.2,Prog.expose_head hx,hn⟩

variable [Platform]

theorem acted_step {env : (c : Call) → Reply c} {x : Σ o, Reply o → Routine}
    (hl : R.lanes[i]? = some l) (hx : l.code.expose 20 = some x) (h : R.acted i env l x = some R') :
    Step R R' := by
  rw [acted] at h
  split_ifs at h with hp
  obtain ⟨T,hT,rfl⟩ := Option.map_eq_some_iff.mp h
  refine .act hl (Prog.head_step (Prog.expose_head hx) _) ?_ hT
  rintro sh cx hop
  change x.1 = .waitPoll sh cx at hop
  rw [hop] at hp
  exact hp rfl

theorem suspended_step (hl : R.lanes[i]? = some l) (h : R.suspended i l = some R') : Step R R' := by
  rw [suspended] at h
  split at h
  · next sh cx k hk =>
    obtain ⟨s,hs,h⟩ := Option.bind_eq_some_iff.mp h
    obtain ⟨p,hp,h⟩ := Option.bind_eq_some_iff.mp h
    obtain ⟨x,hx,h⟩ := Option.bind_eq_some_iff.mp h
    obtain ⟨n,hn,h⟩ := Option.bind_eq_some_iff.mp h
    obtain ⟨T,hT,h⟩ := Option.bind_eq_some_iff.mp h
    cases h
    obtain ⟨N,hN,rfl⟩ := pended_some hT
    exact .pending hl hs (Prog.expose_head hk) hp (awaits_exposed hx hn) hN
  · cases h

theorem play_step {m : Cue} (h : R.play m = some R') : Step R R' := by
  cases m with
  | spawn d =>
    cases h
    exact .spawn d
  | elapse t =>
    cases h
    exact .elapse t
  | act i env =>
    obtain ⟨l,hl,h⟩ := Option.bind_eq_some_iff.mp h
    obtain ⟨x,hx,h⟩ := Option.bind_eq_some_iff.mp h
    exact acted_step hl hx h
  | pend i =>
    obtain ⟨l,hl,h⟩ := Option.bind_eq_some_iff.mp h
    obtain ⟨x,hx,h⟩ := Option.bind_eq_some_iff.mp h
    obtain ⟨n,hn,h⟩ := Option.bind_eq_some_iff.mp h
    obtain ⟨N,hN,rfl⟩ := pended_some h
    exact .pend hl (awaits_exposed hx hn) hN
  | suspend i =>
    obtain ⟨l,hl,h⟩ := Option.bind_eq_some_iff.mp h
    exact suspended_step hl h

theorem tour_chain (R : Bench) (ms : List Cue) : (R :: R.tour ms).IsChain Step := by
  induction ms generalizing R with
  | nil => exact .singleton R
  | cons m ms ih =>
    rw [tour]
    split
    · next R' hR' => exact .cons_cons (play_step hR') (ih R')
    · exact .singleton R

theorem tour_last {P : Bench → Bool} {ms : List Cue} (h : (R.tour ms).getLast?.any P = true) :
    ∃ R' ∈ R :: R.tour ms, P R' = true := by
  obtain ⟨R',hR',hP⟩ := (Option.any_eq_true _ _).mp h
  exact ⟨R',List.mem_cons_of_mem _ (List.mem_of_getLast? hR'),hP⟩

end Soundness

end Bench

end VclRs
