import Mathlib.Data.List.Chain
import VclRs.Interaction.Head
import VclRs.Interaction.Notify
import VclRs.Model.Reactor

namespace VclRs

open Interaction

abbrev Token := NotifyId × ℕ

abbrev Code := Prog Call Reply (Except Stop Unit)

inductive Errand where
  | wait (sh : Handle) (eventMask : UInt32) (timeout : Duration)
  | tick

namespace Errand

def code (r : VclReactor) : Errand → Code
  | .wait sh eventMask timeout => (r.waitEvent sh eventMask timeout).prog
  | .tick => r.tick.prog

def session : Errand → Option Handle
  | .wait sh _ _ => some sh
  | .tick => none

end Errand

inductive Status where
  | running (p : Code)
  | awaiting (o : Call) (k : Reply o → Code)

structure Future where
  errand : Errand
  status : Status

def awaited : Call → Option NotifyId
  | .select _ n _ => some n
  | .recheck n => some n
  | _ => none

def heard : Ev → Bool
  | ⟨.select _ _ _,(_,.notified)⟩ => true
  | ⟨.recheck _,(_,.notified)⟩ => true
  | _ => false

def overslept : Ev → Bool
  | ⟨.recheck _,(_,.elapsed)⟩ => true
  | _ => false

def Faithful : Ev → Prop
  | ⟨.waitersEntry _ sh,n⟩ => n = sh.toNat
  | _ => True

structure Runtime where
  futures : List Future
  entries : NotifyId → Bool
  notifies : NotifyId → Notify ℕ (Multiset Token)
  consumed : NotifyId → List (ℕ × Multiset Token)
  posted : NotifyId → Multiset Token
  posts : ℕ

namespace Runtime

def idle : Runtime := ⟨[],fun _ => false,fun _ => .new,fun _ => [],fun _ => 0,0⟩

def post (R : Runtime) (targets : NotifyId → Bool) : Runtime :=
  { R with
    notifies := fun n => if R.entries n && targets n then (R.notifies n).notifyOne {(n,R.posts)}
      else R.notifies n
    posted := fun n => if R.entries n && targets n then (n,R.posts) ::ₘ R.posted n else R.posted n
    posts := R.posts + 1 }

def perform (R : Runtime) : Call → Runtime
  | .waitersEntry _ sh => { R with entries := Function.update R.entries sh.toNat true }
  | .notifyOne _ sh => R.post (fun n => n = sh.toNat)
  | .notifyEvery _ => R.post (fun _ => true)
  | _ => R

def resume (R : Runtime) (i : ℕ) (f : Future) : Runtime := { R with futures := R.futures.set i f }

def settle (R : Runtime) (n : NotifyId) (N : Notify ℕ (Multiset Token)) : Runtime :=
  { R with notifies := Function.update R.notifies n N }

def consume (R : Runtime) (n : NotifyId) (i : ℕ) (x : Multiset Token) : Runtime :=
  { R with consumed := Function.update R.consumed n ((i,x) :: R.consumed n) }

def holdings (R : Runtime) (n : NotifyId) : Multiset (Multiset Token) :=
  (R.notifies n).holdings + (R.consumed n).map Prod.snd

end Runtime

inductive Step (r : VclReactor) (R : Runtime) : Runtime → Prop
  | spawn (e : Errand) :
      Step r R { R with futures := R.futures ++ [⟨e,.running (e.code r)⟩] }
  | call {i : ℕ} {e : Errand} {p : Code} {o : Call} {k : Reply o → Code}
      (hf : R.futures[i]? = some ⟨e,.running p⟩) (hp : p.Head o k) (ho : awaited o = none)
      (a : Reply o) (ha : Faithful ⟨o,a⟩) :
      Step r R ((R.perform o).resume i ⟨e,.running (k a)⟩)
  | arrive {i : ℕ} {e : Errand} {p : Code} {o : Call} {k : Reply o → Code} {n : NotifyId}
      (hf : R.futures[i]? = some ⟨e,.running p⟩) (hp : p.Head o k) (ho : awaited o = some n) :
      Step r R (R.resume i ⟨e,.awaiting o k⟩)
  | pending {i : ℕ} {e : Errand} {o : Call} {k : Reply o → Code} {n : NotifyId}
      {N : Notify ℕ (Multiset Token)} (hf : R.futures[i]? = some ⟨e,.awaiting o k⟩)
      (ho : awaited o = some n) (hN : (R.notifies n).poll i = (none,N)) :
      Step r R (R.settle n N)
  | notified {i : ℕ} {e : Errand} {o : Call} {k : Reply o → Code} {n : NotifyId}
      {N : Notify ℕ (Multiset Token)} {x : Multiset Token}
      (hf : R.futures[i]? = some ⟨e,.awaiting o k⟩) (ho : awaited o = some n)
      (hN : (R.notifies n).poll i = (some x,N)) (a : Reply o) (ha : heard ⟨o,a⟩ = true) :
      Step r R (((R.settle n N).consume n i x).resume i ⟨e,.running (k a)⟩)
  | lost {i : ℕ} {e : Errand} {o : Call} {k : Reply o → Code} {n : NotifyId}
      (hf : R.futures[i]? = some ⟨e,.awaiting o k⟩) (ho : awaited o = some n) (a : Reply o)
      (ha : heard ⟨o,a⟩ = false)
      (hpolled : overslept ⟨o,a⟩ = true → i ∈ (R.notifies n).members) :
      Step r R ((R.settle n ((R.notifies n).abandon i)).resume i ⟨e,.running (k a)⟩)

abbrev Later (r : VclReactor) : Runtime → Runtime → Prop := Relation.ReflTransGen (Step r)

abbrev Trail (r : VclReactor) (R : Runtime) (run : List Runtime) : Prop :=
  (R :: run).IsChain (Step r)

theorem trail_later {r : VclReactor} {R R' : Runtime} {run : List Runtime} (h : Trail r R run)
    (hR' : R' ∈ R :: run) : Later r R R' := by
  rcases List.mem_cons.mp hR' with rfl | hmem
  · exact .refl
  · have hlater : (R :: run).IsChain (Later r) := h.imp (fun _ _ hstep => .single hstep)
    exact hlater.rel_cons hmem

end VclRs
